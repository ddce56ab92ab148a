-- SUMMARY: The bytes the parser of scan responses reads and writes.
import LynxFly.Wifi.ScanParser

/-!
# The memory of the parser

What `WlanparserScanResult` (`wlan_scan.c`) may read and write. Here each field of an item is a
buffer of its own, of as many cells as it has elements.
-/

open Buffers Buffers.Prog

namespace Wlan

namespace ScanResult

open ScanParser

inductive Buf where
  | description
  /-- A field of item `k` of `ScanResultInfo`. -/
  | item (k : ℕ) (f : Field)
  | memory
  deriving DecidableEq

/-- `rt_memcpy` of `n` bytes of the description. -/
def memcpy (dst : Buf) (src n : ℕ) : Prog Buf UInt8 Unit :=
  loop n fun i => do wr dst i (← rd .description ((src + i : ℕ) : ℤ))

/-- The items, field by field. -/
abbrev fields : Store Buf where
  description := .description
  memory := .memory
  memcpy k f := memcpy (.item k f)
  assign k f v := wr (.item k f) 0 v
  terminate k i := wr (.item k .Ssid) i 0

/-! ## The beacons of a response -/

section Framing

variable (c : Cells Buf UInt8)

/-- The size declared at `pos`. -/
def declared (pos : ℕ) : ℕ :=
  256 * (c .description ((pos + 1 : ℕ) : ℤ)).toNat + (c .description (pos : ℤ)).toNat

/-- The size of the beacon that follows at `pos`, of which the response has it all. -/
def beaconAt (pos left : ℕ) : Option ℕ :=
  if 2 ≤ left ∧ declared c pos ≠ 0 ∧ declared c pos ≤ left - 2 then some (declared c pos)
  else none

/-- Past the beacon, or to the end when there is none. -/
def pastBeacon (pos left : ℕ) : ℕ × ℕ :=
  match beaconAt c pos left with
  | some size => (pos + 2 + size, left - 2 - size)
  | none => (pos + left, 0)

/-- Where the description of each beacon starts, and how many bytes are left there. -/
def positions (BSSDescriptSize : ℕ) : ℕ → ℕ × ℕ
  | 0 => (0, BSSDescriptSize)
  | n + 1 =>
    pastBeacon c (positions BSSDescriptSize n).1 (positions BSSDescriptSize n).2

end Framing

/-! ## Staying inside -/

section Inside

variable (sizeofItem : ℕ) (buffer : ResultBuffer) (rsp : ScanRsp)

/-- Reads of the `size` bytes at `start`, and writes of a field of an item of the buffer. -/
def Inside (start size : ℕ) : Access Buf UInt8 → Prop
  | .read .description i => start ≤ i ∧ i < start + size
  | .write (.item k f) i =>
    0 ≤ i ∧ i < f.size ∧ (k + 1) * sizeofItem ≤ buffer.ScanResulMuxsize.toNat
  | _ => False

/-- What `InterruptScanResult` may do, called with `s`: it reads the declared size and,
    when the response has all of the beacon, stays inside it. -/
def Permitted (c : Cells Buf UInt8) (s : State) : Access Buf UInt8 → Prop := fun e =>
  (∃ i : ℕ, e = .read .description i ∧ s.pBeaconInfo ≤ i ∧ i < s.pBeaconInfo + 2 ∧
    i < rsp.BSSDescriptSize.toNat) ∨
  (s.pBeaconInfo + 2 + declared c s.pBeaconInfo ≤ rsp.BSSDescriptSize.toNat ∧
    Inside sizeofItem buffer (s.pBeaconInfo + 2) (declared c s.pBeaconInfo) e)

variable (stack : Stack)

/-- The beacons the loop gets to. -/
def Parses (n : ℕ) : Prop :=
  rsp.NumberOfSets.toNat ≤ MRVDRV_MAX_BSSID_LIST ∧ n ≤ rsp.NumberOfSets.toNat

variable (c : Cells Buf UInt8)

/-- The state `n` beacons leave, of a response with these description bytes. -/
def after (n : ℕ) : State := (beacons fields sizeofItem buffer stack rsp n).result c

/-- What they leave in memory. -/
def cellsAfter (n : ℕ) : Cells Buf UInt8 := (beacons fields sizeofItem buffer stack rsp n).exec c

/-- What the call for beacon `n` reads and writes. -/
def callAccesses (n : ℕ) : List (Access Buf UInt8) :=
  (interruptScanResult fields sizeofItem buffer stack (after sizeofItem buffer rsp stack c n)).accesses
    (cellsAfter sizeofItem buffer rsp stack c n)

/-- Parsing the response is safe. -/
structure ScanOk : Prop where
  /-- `pBeaconInfo` plus `bytesLeft` stays where it is. -/
  sameEnd : ∀ n, Parses rsp n →
    (after sizeofItem buffer rsp stack c n).pBeaconInfo +
      (after sizeofItem buffer rsp stack c n).bytesLeft = rsp.BSSDescriptSize.toNat
  inside : ∀ n, Parses rsp (n + 1) → (after sizeofItem buffer rsp stack c n).bytesLeft ≠ 0 →
    ∀ e ∈ callAccesses sizeofItem buffer rsp stack c n,
      Permitted sizeofItem buffer rsp (cellsAfter sizeofItem buffer rsp stack c n)
        (after sizeofItem buffer rsp stack c n) e
  room : ((wlanparserScanResult fields sizeofItem buffer stack rsp).result c).2 * sizeofItem ≤
    buffer.ScanResulMuxsize.toNat

end Inside

/-! ## The description is only read -/

theorem keeps_byte (ptr : ℕ) : Keeps .description (byte fields ptr) := keeps_rd _ _

theorem keeps_memcpy (k : ℕ) (f : Field) (src n : ℕ) :
    Keeps .description (memcpy (.item k f) src n) :=
  keeps_loop fun _ _ => (keeps_byte _).bind fun _ => keeps_wr (by simp) _ _

theorem keeps_isWpaOui (ptr : ℕ) : Keeps .description (isWpaOui fields ptr) :=
  (keeps_byte _).bind fun _ => (keeps_byte _).bind fun _ => (keeps_byte _).bind fun _ =>
    (keeps_byte _).bind fun _ => keeps_pure _

theorem keeps_switchElem (k ptr : ℕ) (elemID elemLen : UInt8) (flags : Flags) :
    Keeps .description (switchElem fields k ptr elemID elemLen flags) := by
  unfold switchElem
  refine keeps_ite ?ssid (keeps_ite ?rates (keeps_ite ?ds (keeps_ite ?vendor (keeps_ite ?rsn ?_))))
  case ssid =>
    exact (keeps_wr (by simp) _ _).bind fun _ => (keeps_memcpy _ _ _ _).bind fun _ =>
      (keeps_wr (by simp) _ _).bind fun _ => keeps_pure _
  case rates =>
    exact (keeps_memcpy _ _ _ _).bind fun _ => (keeps_memcpy _ _ _ _).bind fun _ => keeps_pure _
  case ds =>
    exact (keeps_byte _).bind fun _ => (keeps_wr (by simp) _ _).bind fun _ => keeps_pure _
  case vendor => exact (keeps_isWpaOui _).bind fun _ => keeps_pure _
  case rsn => exact keeps_pure _
  exact keeps_pure _

theorem keeps_variableIE (k ptr : ℕ) (left : ℤ) (flags : Flags) :
    Keeps .description (variableIE fields k ptr left flags) := by
  induction h : left.toNat using Nat.strong_induction_on generalizing ptr left flags with
  | _ n ih =>
    subst h
    unfold variableIE
    by_cases hleft : 2 ≤ left
    · rw [if_pos hleft]
      refine (keeps_byte _).bind fun elemID => (keeps_byte _).bind fun elemLen => ?_
      refine keeps_ite (keeps_pure _) ?_
      refine (keeps_switchElem _ _ _ _ _).bind fun flags =>
        (keeps_wr (by simp) _ _).bind fun _ => ?_
      exact ih _ (by omega) _ _ _ rfl
    · rw [if_neg hleft]
      exact keeps_pure _

theorem keeps_fixedFields (stack : Stack) (k ptr : ℕ) :
    Keeps .description (fixedFields fields stack k ptr) := by
  unfold fixedFields
  refine (keeps_byte _).bind fun _ => (keeps_wr (by simp) _ _).bind fun _ => ?_
  refine (keeps_byte _).bind fun _ => (keeps_byte _).bind fun _ => ?_
  refine (keeps_rd _ _).bind fun _ => (keeps_wr (by simp) _ _).bind fun _ => ?_
  exact (keeps_rd _ _).bind fun _ => keeps_wr (by simp) _ _

theorem keeps_parzeBSSDescription (stack : Stack) (k ptr size : ℕ) :
    Keeps .description (parzeBSSDescription fields stack k ptr size) := by
  unfold parzeBSSDescription
  refine (keeps_memcpy _ _ _ _).bind fun _ => keeps_ite (keeps_pure _) ?_
  refine (keeps_fixedFields _ _ _).bind fun _ => ?_
  exact (keeps_variableIE _ _ _ _).bind fun _ => keeps_pure _

theorem keeps_beaconSize (s : State) : Keeps .description (beaconSize fields s) :=
  keeps_ite ((keeps_byte _).bind fun _ => (keeps_byte _).bind fun _ => keeps_pure _) (keeps_pure _)

section Beacons

variable {sizeofItem : ℕ} {buffer : ResultBuffer} {stack : Stack} {rsp : ScanRsp}
  {c : Cells Buf UInt8} {s : State}

theorem keeps_interruptScanResult :
    Keeps .description (interruptScanResult fields sizeofItem buffer stack s) := by
  unfold interruptScanResult
  refine (keeps_beaconSize _).bind fun _ => keeps_ite (keeps_pure _) (keeps_ite ?_ (keeps_pure _))
  refine (keeps_parzeBSSDescription _ _ _ _).bind fun _ => ?_
  exact keeps_ite (keeps_pure _) (keeps_pure _)

theorem keeps_beacons (n : ℕ) : Keeps .description (beacons fields sizeofItem buffer stack rsp n) := by
  induction n with
  | zero => exact keeps_pure _
  | succ n ih =>
    exact ih.bind fun _ => keeps_ite (keeps_pure _)
      (keeps_interruptScanResult.bind fun _ => keeps_pure _)

end Beacons

/-! ## One beacon -/

section Call

variable {sizeofItem : ℕ} {buffer : ResultBuffer} {stack : Stack} {rsp : ScanRsp}
  {c : Cells Buf UInt8} {s : State} {size : ℕ}

variable (sizeofItem buffer c s) in
/-- The call with `s` gets to parse a beacon, of this size. -/
structure Takes (size : ℕ) : Prop where
  beacon : beaconAt c s.pBeaconInfo s.bytesLeft = some size
  info : buffer.ScanResultInfo ≠ none
  item : HasItem sizeofItem buffer s.ScanResultcount

theorem beaconAt_eq_some {pos left : ℕ} (h : beaconAt c pos left = some size) :
    2 ≤ left ∧ size ≠ 0 ∧ size ≤ left - 2 ∧ declared c pos = size := by
  unfold beaconAt at h
  split at h
  case isTrue hat =>
    cases h
    exact ⟨hat.1, hat.2.1, hat.2.2, rfl⟩
  case isFalse => nomatch h

@[simp] theorem result_byte (ptr : ℕ) : (byte fields ptr).result c = c .description ptr := rfl
@[simp] theorem exec_byte (ptr : ℕ) : (byte fields ptr).exec c = c := rfl
@[simp] theorem accesses_byte (ptr : ℕ) :
    (byte fields ptr).accesses c = [.read .description ptr] := rfl

theorem result_beaconSize (h : 2 ≤ s.bytesLeft) :
    (beaconSize fields s).result c = (declared c s.pBeaconInfo, s.advance 2) := by
  unfold beaconSize
  rw [if_pos h]
  rfl

theorem result_beaconSize_short (h : ¬ 2 ≤ s.bytesLeft) : (beaconSize fields s).result c = (0, s) := by
  unfold beaconSize
  rw [if_neg h]
  rfl

theorem exec_beaconSize : (beaconSize fields s).exec c = c := by
  unfold beaconSize
  split <;> rfl

theorem skip_advance (h : 2 ≤ s.bytesLeft) : (s.advance 2).skip = s.skip := by
  simp only [State.skip, State.advance, State.mk.injEq, and_true]
  omega

/-- Without a beacon to parse, `InterruptScanResult` reads at most a size and skips. -/
theorem interruptScanResult_skips (h : ∀ size, ¬ Takes sizeofItem buffer c s size) :
    (interruptScanResult fields sizeofItem buffer stack s).result c = (WLAN_STATUS_FAILURE, s.skip) ∧
    (interruptScanResult fields sizeofItem buffer stack s).accesses c = (beaconSize fields s).accesses c := by
  unfold interruptScanResult
  simp only [result_bind, accesses_bind, exec_beaconSize]
  by_cases hleft : 2 ≤ s.bytesLeft
  · simp only [result_beaconSize hleft]
    split
    case isTrue => simp [skip_advance hleft]
    case isFalse hframe =>
      obtain ⟨hsize, hfits, hinfo⟩ : declared c s.pBeaconInfo ≠ 0 ∧
          declared c s.pBeaconInfo ≤ s.bytesLeft - 2 ∧ buffer.ScanResultInfo ≠ none := by
        simpa [State.advance] using hframe
      have hitem : ¬ HasItem sizeofItem buffer (s.advance 2).ScanResultcount :=
        fun hitem => h _ ⟨if_pos ⟨hleft, hsize, hfits⟩, hinfo, hitem⟩
      rw [if_neg hitem]
      simp [skip_advance hleft]
  · simp only [result_beaconSize_short hleft]
    simp

/-- A beacon is parsed where its size ends, and counted if all of it is understood. -/
theorem interruptScanResult_takes (h : Takes sizeofItem buffer c s size) :
    ((interruptScanResult fields sizeofItem buffer stack s).result c).2 =
      ⟨s.pBeaconInfo + 2 + size, s.bytesLeft - 2 - size,
        if (parzeBSSDescription fields stack s.ScanResultcount.toNat (s.pBeaconInfo + 2) size).result c =
          WLAN_STATUS_SUCCESS then s.ScanResultcount + 1 else s.ScanResultcount⟩ ∧
    (interruptScanResult fields sizeofItem buffer stack s).accesses c =
      (beaconSize fields s).accesses c ++ (parzeBSSDescription fields stack s.ScanResultcount.toNat
        (s.pBeaconInfo + 2) size).accesses c := by
  obtain ⟨hleft, hsize, hfits, rfl⟩ := beaconAt_eq_some h.beacon
  have hframe : ¬ (declared c s.pBeaconInfo = 0 ∨
      (s.advance 2).bytesLeft < declared c s.pBeaconInfo ∨ buffer.ScanResultInfo = none) := by
    simpa [State.advance] using ⟨hsize, hfits, h.info⟩
  have hitem : HasItem sizeofItem buffer (s.advance 2).ScanResultcount := h.item
  unfold interruptScanResult
  simp only [result_bind, accesses_bind, exec_beaconSize, result_beaconSize hleft, if_neg hframe,
    if_pos hitem]
  by_cases hret : (parzeBSSDescription fields stack s.ScanResultcount.toNat (s.pBeaconInfo + 2)
      (declared c s.pBeaconInfo)).result c = WLAN_STATUS_SUCCESS
  · simp [State.advance, State.count, hret]
  · simp [State.advance, hret]

theorem notEnough_iff : (size : ℤ) - ETH_ALEN < 12 ↔ size < 18 := by
  change (size : ℤ) - (6 : ℕ) < 12 ↔ size < 18
  omega

/-- Twelve bytes are asked for, and thirteen taken. -/
theorem result_parzeBSSDescription {k ptr : ℕ} :
    (parzeBSSDescription fields stack k ptr size).result c =
      if size < 18 then WLAN_STATUS_FAILURE else WLAN_STATUS_SUCCESS := by
  unfold parzeBSSDescription
  rw [result_bind]
  by_cases hsize : size < 18
  · rw [if_pos hsize, if_pos (notEnough_iff.mpr hsize)]
    rfl
  · rw [if_neg hsize, if_neg (mt notEnough_iff.mp hsize)]
    rfl

theorem accesses_parzeBSSDescription_short {k ptr : ℕ} (h : size < 18) :
    (parzeBSSDescription fields stack k ptr size).accesses c =
      (memcpy (.item k .MacAddress) ptr ETH_ALEN).accesses c := by
  unfold parzeBSSDescription
  rw [accesses_bind, if_pos (notEnough_iff.mpr h)]
  simp

theorem accesses_parzeBSSDescription_long {k ptr : ℕ} (h : ¬ size < 18) :
    (parzeBSSDescription fields stack k ptr size).accesses c =
      (memcpy (.item k .MacAddress) ptr ETH_ALEN).accesses c ++
      (fixedFields fields stack k ptr).accesses ((memcpy (.item k .MacAddress) ptr ETH_ALEN).exec c) ++
      (variableIE fields k (ptr + 19) (size - 19) ⟨false, false⟩).accesses
        ((fixedFields fields stack k ptr).exec ((memcpy (.item k .MacAddress) ptr ETH_ALEN).exec c)) := by
  unfold parzeBSSDescription
  rw [accesses_bind, if_neg (mt notEnough_iff.mp h)]
  simp

theorem accesses_fixedFields (stack : Stack) (k ptr : ℕ) (c : Cells Buf UInt8) :
    ∃ pCap, (fixedFields fields stack k ptr).accesses c =
      [.read .description (ptr + 6 : ℕ), .write (.item k .Rssi) 0,
        .read .description (ptr + 17 : ℕ), .read .description (ptr + 18 : ℕ),
        .read .memory pCap, .write (.item k .Privacy) 0,
        .read .memory pCap, .write (.item k .InfrastructureMode) 0] := by
  unfold fixedFields
  simp only [accesses_bind, accesses_byte, accesses_wr, accesses_rd]
  exact ⟨_, rfl⟩

/-- With the size the rest of the beacon needs, `pCap` is followed. -/
theorem read_memory_mem_accesses (stack : Stack) (k ptr : ℕ) (c : Cells Buf UInt8)
    (h : ¬ size < 18) :
    ∃ i, .read .memory i ∈ (parzeBSSDescription fields stack k ptr size).accesses c := by
  obtain ⟨pCap, hfixed⟩ := accesses_fixedFields stack k ptr
    ((memcpy (.item k .MacAddress) ptr ETH_ALEN).exec c)
  rw [accesses_parzeBSSDescription_long h, hfixed]
  exact ⟨pCap, by simp⟩

theorem accesses_memcpy (dst : Buf) (src n : ℕ) :
    ∀ e, e ∈ (memcpy dst src n).accesses c ↔
      ∃ i < n, e = .read .description ((src + i : ℕ) : ℤ) ∨ e = .write dst i := by
  intro e
  unfold memcpy
  rw [mem_accesses_loop_iff]
  simp

theorem inside_write {k start : ℕ} {f : Field} {i : ℕ}
    (hitem : (k + 1) * sizeofItem ≤ buffer.ScanResulMuxsize.toNat) :
    Inside sizeofItem buffer start size (.write (.item k f) (i : ℤ)) ↔ i < f.size := by
  constructor
  · intro h
    exact_mod_cast h.2.1
  · intro h
    exact ⟨by omega, by exact_mod_cast h, hitem⟩

theorem inside_read {start i : ℕ} :
    Inside sizeofItem buffer start size (.read .description (i : ℤ)) ↔
      start ≤ i ∧ i < start + size := by
  constructor
  · rintro ⟨hstart, hend⟩
    exact ⟨by omega, by omega⟩
  · rintro ⟨hstart, hend⟩
    exact ⟨by omega, by omega⟩

/-- Copying bytes behind `start` stays inside when they are bytes of the beacon and the
    field of an item of the buffer has room for them. -/
theorem memcpy_inside_iff {k start src n : ℕ} {f : Field}
    (hitem : n = 0 → (k + 1) * sizeofItem ≤ buffer.ScanResulMuxsize.toNat)
    (hstart : start ≤ src) (hsrc : src ≤ start + size ∨ n ≠ 0) :
    (∀ e ∈ (memcpy (.item k f) src n).accesses c, Inside sizeofItem buffer start size e) ↔
      n ≤ f.size ∧ src + n ≤ start + size ∧
        (k + 1) * sizeofItem ≤ buffer.ScanResulMuxsize.toNat := by
  constructor
  · intro h
    cases n with
    | zero => exact ⟨Nat.zero_le _, hsrc.resolve_right (by simp), hitem rfl⟩
    | succ n =>
      have hread := h _ ((accesses_memcpy _ _ _ _).mpr ⟨n, Nat.lt_succ_self n, .inl rfl⟩)
      have hwrite := h _ ((accesses_memcpy _ _ _ _).mpr ⟨n, Nat.lt_succ_self n, .inr rfl⟩)
      have hlt := hread.2
      have hcell := hwrite.2.1
      exact ⟨by omega, by omega, hwrite.2.2⟩
  · rintro ⟨hfield, hlen, hitem⟩ e he
    rw [accesses_memcpy] at he
    rcases he with ⟨i, hi, rfl | rfl⟩
    · exact ⟨by omega, by omega⟩
    · exact ⟨by omega, by omega, hitem⟩

theorem macAddress_inside_iff {k : ℕ} (ptr : ℕ) (c : Cells Buf UInt8) :
    (∀ e ∈ (memcpy (.item k .MacAddress) ptr ETH_ALEN).accesses c,
      Inside sizeofItem buffer ptr size e) ↔
    6 ≤ size ∧ (k + 1) * sizeofItem ≤ buffer.ScanResulMuxsize.toNat := by
  rw [memcpy_inside_iff (n := ETH_ALEN) (fun h => absurd h (by decide)) le_rfl
    (.inr (by decide))]
  change 6 ≤ 6 ∧ ptr + 6 ≤ ptr + size ∧ _ ↔ _
  constructor
  · rintro ⟨-, hsize, hitem⟩
    exact ⟨by omega, hitem⟩
  · rintro ⟨hsize, hitem⟩
    exact ⟨le_rfl, by omega, hitem⟩

theorem not_permitted_memory {i : ℤ} :
    ¬ Permitted sizeofItem buffer rsp c s (.read .memory i) := by
  rintro (⟨j, hj, -⟩ | ⟨-, h⟩)
  · nomatch hj
  · exact h

/-- Behind the declared size, what is permitted is what is inside the beacon. -/
theorem permitted_iff_inside {e : Access Buf UInt8} (hsize : declared c s.pBeaconInfo = size)
    (hfits : s.pBeaconInfo + 2 + size ≤ rsp.BSSDescriptSize.toNat)
    (he : ∀ i : ℕ, e = .read .description i → s.pBeaconInfo + 2 ≤ i) :
    Permitted sizeofItem buffer rsp c s e ↔
      Inside sizeofItem buffer (s.pBeaconInfo + 2) size e := by
  subst hsize
  constructor
  · rintro (⟨i, hi, -, hlt, -⟩ | ⟨-, hinside⟩)
    · have := he i hi
      omega
    · exact hinside
  · intro h
    exact .inr ⟨hfits, h⟩

theorem macAddress_permitted_iff {k : ℕ} (hsize : declared c s.pBeaconInfo = size)
    (hfits : s.pBeaconInfo + 2 + size ≤ rsp.BSSDescriptSize.toNat) :
    (∀ e ∈ (memcpy (.item k .MacAddress) (s.pBeaconInfo + 2) ETH_ALEN).accesses c,
      Permitted sizeofItem buffer rsp c s e) ↔
    6 ≤ size ∧ (k + 1) * sizeofItem ≤ buffer.ScanResulMuxsize.toNat := by
  rw [← macAddress_inside_iff (s.pBeaconInfo + 2) c]
  refine forall₂_congr fun e he => permitted_iff_inside hsize hfits fun i hi => ?_
  rw [accesses_memcpy] at he
  obtain ⟨j, -, hread | hwrite⟩ := he
  · cases hi.symm.trans hread
    omega
  · nomatch hi.symm.trans hwrite

/-- Parsing a beacon the response has all of stays inside it exactly when it holds an
    address but not the fixed fields, and there is an item for it. -/
theorem parzeBSSDescription_permitted_iff {k : ℕ} (hsize : declared c s.pBeaconInfo = size)
    (hfits : s.pBeaconInfo + 2 + size ≤ rsp.BSSDescriptSize.toNat) :
    (∀ e ∈ (parzeBSSDescription fields stack k (s.pBeaconInfo + 2) size).accesses c,
      Permitted sizeofItem buffer rsp c s e) ↔
    6 ≤ size ∧ size < 18 ∧ (k + 1) * sizeofItem ≤ buffer.ScanResulMuxsize.toNat := by
  by_cases hshort : size < 18
  · rw [accesses_parzeBSSDescription_short hshort, macAddress_permitted_iff hsize hfits]
    tauto
  · obtain ⟨i, hi⟩ := read_memory_mem_accesses stack k (s.pBeaconInfo + 2) c hshort
    constructor
    · intro h
      exact absurd (h _ hi) not_permitted_memory
    · rintro ⟨-, hlt, -⟩
      exact absurd hlt hshort

/-! What goes wrong past `pCap` -/

/-- With this many bytes of the beacon left where the element starts, those the parser
    reads are among them, and the fields hold them. -/
def ElementFits (elemID elemLen : UInt8) (left : ℤ) : Prop :=
  if elemID = SSID then elemLen.toNat < WLAN_MAX_SSID_LENGTH ∧ elemLen.toNat + 2 ≤ left
  else if elemID = SUPPORTED_RATES then
    elemLen.toNat ≤ WLAN_SUPPORTED_RATES ∧ elemLen.toNat + 2 ≤ left
  else if elemID = DS_PARAM_SET then 3 ≤ left
  else if elemID = VENDOR_SPECIFIC_221 then 6 ≤ left
  else True

/-- All elements from `ptr` on fit. -/
def ElementsFit (bytes : ℤ → UInt8) (ptr : ℕ) (left : ℤ) : Prop :=
  2 ≤ left → left < (bytes (ptr + 1 : ℕ)).toNat ∨
    ElementFits (bytes ptr) (bytes (ptr + 1 : ℕ)) left ∧
    ElementsFit bytes (ptr + ((bytes (ptr + 1 : ℕ)).toNat + 2))
      (left - ((bytes (ptr + 1 : ℕ)).toNat + 2))
termination_by left.toNat
decreasing_by omega

/-- A field is never empty. -/
theorem inside_write_zero {k start : ℕ} {f : Field}
    (hitem : (k + 1) * sizeofItem ≤ buffer.ScanResulMuxsize.toNat) :
    Inside sizeofItem buffer start size (.write (.item k f) 0) := by
  refine ⟨le_rfl, ?_, hitem⟩
  cases f <;> decide

theorem switchElem_inside_iff {k ptr start : ℕ} {elemID elemLen : UInt8} {left : ℤ}
    {flags : Flags} (hitem : (k + 1) * sizeofItem ≤ buffer.ScanResulMuxsize.toNat)
    (hstart : start ≤ ptr) (hend : ptr + left = start + size) (hleft : 2 ≤ left) :
    (∀ e ∈ (switchElem fields k ptr elemID elemLen flags).accesses c,
      Inside sizeofItem buffer start size e) ↔ ElementFits elemID elemLen left := by
  have hsrc : start ≤ ptr + 2 ∧ ptr + 2 ≤ start + size := by omega
  unfold switchElem ElementFits
  by_cases hssid : elemID = SSID
  · rw [if_pos hssid, if_pos hssid]
    simp only [accesses_bind, accesses_wr, accesses_pure, List.append_nil,
      List.forall_mem_append, List.forall_mem_singleton, inside_write_zero hitem,
      inside_write hitem,
      memcpy_inside_iff (fun _ => hitem) hsrc.1 (.inl hsrc.2), hitem, Field.size, true_and,
      and_true]
    by_cases hlen : elemLen.toNat < WLAN_MAX_SSID_LENGTH
    · have hself : ssidLength elemLen = elemLen := if_pos hlen
      rw [hself]
      omega
    -- a long name leaves no room for its terminator
    · have hfirst : ssidLength elemLen = 32 := if_neg hlen
      rw [hfirst]
      have hfull : ¬ (32 : UInt8).toNat < WLAN_MAX_SSID_LENGTH := by decide
      tauto
  rw [if_neg hssid, if_neg hssid]
  by_cases hrates : elemID = SUPPORTED_RATES
  · rw [if_pos hrates, if_pos hrates]
    simp only [accesses_bind, accesses_pure, List.append_nil, List.forall_mem_append,
      memcpy_inside_iff (fun _ => hitem) hsrc.1 (.inl hsrc.2), hitem, Field.size, and_true]
    omega
  rw [if_neg hrates, if_neg hrates]
  by_cases hds : elemID = DS_PARAM_SET
  · rw [if_pos hds, if_pos hds]
    simp only [accesses_bind, accesses_wr, accesses_pure, accesses_byte, List.append_nil,
      List.forall_mem_append, List.forall_mem_singleton, inside_write_zero hitem, inside_read,
      and_true]
    omega
  rw [if_neg hds, if_neg hds]
  by_cases hvendor : elemID = VENDOR_SPECIFIC_221
  · rw [if_pos hvendor, if_pos hvendor]
    unfold isWpaOui
    simp only [accesses_bind, accesses_pure, accesses_byte, List.append_nil,
      List.forall_mem_append, List.forall_mem_singleton, inside_read]
    omega
  rw [if_neg hvendor, if_neg hvendor]
  split <;> simp

theorem accesses_variableIE_stop {k ptr : ℕ} {left : ℤ} {flags : Flags} (hleft : 2 ≤ left)
    (hlen : left < (c .description (ptr + 1 : ℕ)).toNat) :
    (variableIE fields k ptr left flags).accesses c =
      [.read .description ptr, .read .description (ptr + 1 : ℕ)] := by
  have hlen : left < ((byte fields (ptr + 1)).result c).toNat := hlen
  unfold variableIE
  rw [if_pos hleft]
  simp only [accesses_bind, exec_byte]
  rw [if_pos hlen]
  rfl

/-- One round of the loop. -/
theorem accesses_variableIE_next (k : ℕ) {ptr : ℕ} {left : ℤ} (flags : Flags)
    (hleft : 2 ≤ left) (hlen : ¬ left < (c .description (ptr + 1 : ℕ)).toNat) :
    ∃ flags' c', c' .description = c .description ∧
      (variableIE fields k ptr left flags).accesses c =
        [.read .description ptr, .read .description (ptr + 1 : ℕ)] ++
        (switchElem fields k ptr (c .description ptr) (c .description (ptr + 1 : ℕ)) flags).accesses c ++
        [.write (.item k .Security) 0] ++
        (variableIE fields k (ptr + ((c .description (ptr + 1 : ℕ)).toNat + 2))
          (left - ((c .description (ptr + 1 : ℕ)).toNat + 2)) flags').accesses c' := by
  have hlen : ¬ left < ((byte fields (ptr + 1)).result c).toNat := hlen
  let switch := switchElem fields k ptr (c .description ptr) (c .description (ptr + 1 : ℕ)) flags
  let security := wr (Buf.item k .Security) 0 (switch.result c).security
  refine ⟨switch.result c, security.exec (switch.exec c), ?_, ?_⟩
  · rw [exec_wr_of_ne _ (by simp)]
    exact keeps_switchElem _ _ _ _ _ c
  · rw [variableIE, if_pos hleft]
    simp only [accesses_bind, exec_byte]
    rw [if_neg hlen]
    simp only [accesses_bind, accesses_byte, result_byte, accesses_wr, List.cons_append,
      List.nil_append, List.append_assoc, switch, security]

/-- The elements from `ptr` on, to the end of the beacon. -/
theorem variableIE_inside_iff {k start : ℕ} (ptr : ℕ) (left : ℤ) (flags : Flags)
    (c : Cells Buf UInt8) (hitem : (k + 1) * sizeofItem ≤ buffer.ScanResulMuxsize.toNat)
    (hstart : start ≤ ptr) (hend : ptr + left = start + size) :
    (∀ e ∈ (variableIE fields k ptr left flags).accesses c, Inside sizeofItem buffer start size e) ↔
      ElementsFit (c .description) ptr left := by
  induction h : left.toNat using Nat.strong_induction_on generalizing ptr left flags c with
  | _ n ih =>
    subst h
    unfold ElementsFit
    by_cases hleft : 2 ≤ left
    case neg =>
      rw [variableIE, if_neg hleft]
      simp [hleft]
    have hheader : ∀ e ∈ [Access.read Buf.description (ptr : ℤ),
        .read .description (ptr + 1 : ℕ)], Inside sizeofItem buffer start size e := by
      rw [List.forall_mem_cons, List.forall_mem_singleton, inside_read, inside_read]
      omega
    by_cases hlen : left < (c .description (ptr + 1 : ℕ)).toNat
    · rw [accesses_variableIE_stop hleft hlen]
      exact ⟨fun _ _ => .inl hlen, fun _ => hheader⟩
    · obtain ⟨flags', c', hc', haccesses⟩ := accesses_variableIE_next k flags hleft hlen
      have htail := ih _ (by omega) (ptr + ((c .description (ptr + 1 : ℕ)).toNat + 2))
        (left - ((c .description (ptr + 1 : ℕ)).toNat + 2)) flags' c' (by omega) (by omega) rfl
      rw [hc'] at htail
      rw [haccesses, List.forall_mem_append, List.forall_mem_append, List.forall_mem_append,
        List.forall_mem_singleton, switchElem_inside_iff hitem hstart hend hleft, htail]
      constructor
      · rintro ⟨⟨⟨-, helem⟩, -⟩, hrest⟩ -
        exact .inr ⟨helem, hrest⟩
      · intro h
        obtain ⟨helem, hrest⟩ := (h hleft).resolve_left hlen
        exact ⟨⟨⟨hheader, helem⟩, inside_write_zero hitem⟩, hrest⟩

section Only

variable {ok : Access Buf UInt8 → Prop} {k : ℕ} (hread : ∀ i, ok (.read .description i))
  (hwrite : ∀ f i, ok (.write (.item k f) i))

include hread hwrite

theorem within_memcpy (f : Field) (src n : ℕ) : Within ok (memcpy (.item k f) src n) :=
  within_loop fun _ _ => (within_rd (hread _)).bind fun _ => within_wr (hwrite _ _)

theorem within_switchElem (ptr : ℕ) (elemID elemLen : UInt8) (flags : Flags) :
    Within ok (switchElem fields k ptr elemID elemLen flags) := by
  have hbyte : ∀ ptr, Within ok (byte fields ptr) := fun ptr => within_rd (hread ptr)
  have hmemcpy := within_memcpy hread hwrite
  unfold switchElem
  refine within_ite (fun _ => ?ssid) fun _ => within_ite (fun _ => ?rates) fun _ =>
    within_ite (fun _ => ?ds) fun _ => within_ite (fun _ => ?vendor) fun _ =>
    within_ite (fun _ => ?rsn) fun _ => ?_
  case ssid =>
    exact (within_wr (hwrite _ _)).bind fun _ => (hmemcpy _ _ _).bind fun _ =>
      (within_wr (hwrite _ _)).bind fun _ => within_pure _
  case rates =>
    exact (hmemcpy _ _ _).bind fun _ => (hmemcpy _ _ _).bind fun _ => within_pure _
  case ds =>
    exact (hbyte _).bind fun _ => (within_wr (hwrite _ _)).bind fun _ => within_pure _
  case vendor =>
    refine Within.bind ?_ fun _ => within_pure _
    exact (hbyte _).bind fun _ => (hbyte _).bind fun _ => (hbyte _).bind fun _ =>
      (hbyte _).bind fun _ => within_pure _
  case rsn => exact within_pure _
  exact within_pure _

/-- The loop over the elements reads the description, writes its item, and touches
    nothing else. -/
theorem within_variableIE (ptr : ℕ) (left : ℤ) (flags : Flags) :
    Within ok (variableIE fields k ptr left flags) := by
  induction h : left.toNat using Nat.strong_induction_on generalizing ptr left flags with
  | _ n ih =>
    subst h
    unfold variableIE
    refine within_ite (fun hleft => ?_) fun _ => within_pure _
    refine (within_rd (hread _)).bind fun elemID => (within_rd (hread _)).bind fun elemLen => ?_
    refine within_ite (fun _ => within_pure _) fun _ => ?_
    refine (within_switchElem hread hwrite _ _ _ _).bind fun flags =>
      (within_wr (hwrite _ _)).bind fun _ => ?_
    exact ih _ (by omega) _ _ _ rfl

end Only

/-- An access that does not follow `pCap`. -/
def NotPCap (e : Access Buf UInt8) : Prop := ∀ i, e ≠ .read .memory i

theorem notPCap_imp_inside_iff {start : ℕ} {p : Prog Buf UInt8 Unit} (h : Within NotPCap p) :
    (∀ e ∈ p.accesses c, NotPCap e → Inside sizeofItem buffer start size e) ↔
      ∀ e ∈ p.accesses c, Inside sizeofItem buffer start size e :=
  forall₂_congr fun e he => ⟨fun hinside => hinside (h c e he), fun hinside _ => hinside⟩

theorem fixedFields_inside_iff {k ptr : ℕ}
    (hitem : (k + 1) * sizeofItem ≤ buffer.ScanResulMuxsize.toNat) :
    (∀ e ∈ (fixedFields fields stack k ptr).accesses c,
      NotPCap e → Inside sizeofItem buffer ptr size e) ↔ 19 ≤ size := by
  obtain ⟨pCap, hfixed⟩ := accesses_fixedFields stack k ptr c
  rw [hfixed]
  constructor
  · intro h
    have hcap := h (.read .description (ptr + 18 : ℕ)) (by simp) (by simp [NotPCap])
    have hlt := (inside_read.mp hcap).2
    omega
  · intro hsize
    have hread : ∀ i < 19, Inside sizeofItem buffer ptr size
        (.read .description ((ptr + i : ℕ) : ℤ)) := fun i hi =>
      inside_read.mpr ⟨by omega, by omega⟩
    simp only [List.forall_mem_cons, List.not_mem_nil, false_imp_iff, forall_true_iff, and_true]
    refine ⟨?_, ?_, ?_, ?_, ?_, ?_, ?_, ?_⟩
    · exact fun _ => hread 6 (by omega)
    · exact fun _ => inside_write_zero hitem
    · exact fun _ => hread 17 (by omega)
    · exact fun _ => hread 18 (by omega)
    · exact fun h => absurd rfl (h pCap)
    · exact fun _ => inside_write_zero hitem
    · exact fun h => absurd rfl (h pCap)
    · exact fun _ => inside_write_zero hitem

/-- Were `pCap` not followed, a beacon would have to be complete, to the last of the fixed
    fields, and each of its elements to fit. -/
theorem parzeBSSDescription_inside_iff {k ptr : ℕ} :
    (∀ e ∈ (parzeBSSDescription fields stack k ptr size).accesses c,
      NotPCap e → Inside sizeofItem buffer ptr size e) ↔
    6 ≤ size ∧ (k + 1) * sizeofItem ≤ buffer.ScanResulMuxsize.toNat ∧
      (18 ≤ size → 19 ≤ size ∧ ElementsFit (c .description) (ptr + 19) (size - 19)) := by
  have hread : ∀ i, NotPCap (.read .description i) := by simp [NotPCap]
  have hwrite : ∀ f i, NotPCap (.write (.item k f) i) := by simp [NotPCap]
  have hmac := (notPCap_imp_inside_iff (c := c) (within_memcpy hread hwrite .MacAddress ptr
    ETH_ALEN)).trans (@macAddress_inside_iff sizeofItem buffer size k ptr c)
  by_cases hshort : size < 18
  · rw [accesses_parzeBSSDescription_short hshort, hmac]
    constructor
    · rintro ⟨hsize, hitem⟩
      exact ⟨hsize, hitem, by omega⟩
    · rintro ⟨hsize, hitem, -⟩
      exact ⟨hsize, hitem⟩
  · rw [accesses_parzeBSSDescription_long hshort, List.forall_mem_append, List.forall_mem_append,
      hmac, notPCap_imp_inside_iff (within_variableIE hread hwrite _ _ _)]
    have helements (hitem : (k + 1) * sizeofItem ≤ buffer.ScanResulMuxsize.toNat) :=
      @variableIE_inside_iff sizeofItem buffer size k ptr (ptr + 19) (size - 19) ⟨false, false⟩
        ((fixedFields fields stack k ptr).exec ((memcpy (.item k .MacAddress) ptr ETH_ALEN).exec c))
        hitem (by omega) (by omega)
    rw [keeps_fixedFields, keeps_memcpy] at helements
    constructor
    · rintro ⟨⟨⟨hsize, hitem⟩, hfixed⟩, hrest⟩
      exact ⟨hsize, hitem, fun _ =>
        ⟨(fixedFields_inside_iff hitem).mp hfixed, (helements hitem).mp hrest⟩⟩
    · rintro ⟨hsize, hitem, hlong⟩
      obtain ⟨hfixed, hrest⟩ := hlong (by omega)
      exact ⟨⟨⟨hsize, hitem⟩, (fixedFields_inside_iff hitem).mpr hfixed⟩,
        (helements hitem).mpr hrest⟩

/-- The two bytes of a size are inside the response. -/
theorem beaconSize_permitted
    (hend : s.pBeaconInfo + s.bytesLeft = rsp.BSSDescriptSize.toNat) :
    ∀ e ∈ (beaconSize fields s).accesses c, Permitted sizeofItem buffer rsp c s e := by
  intro e he
  unfold beaconSize at he
  split at he
  case isFalse => simp at he
  case isTrue hleft =>
    simp only [accesses_bind, accesses_byte, accesses_pure, List.append_nil, List.mem_append,
      List.mem_singleton] at he
    rcases he with rfl | rfl
    · exact .inl ⟨s.pBeaconInfo, rfl, by omega, by omega, by omega⟩
    · exact .inl ⟨s.pBeaconInfo + 1, rfl, by omega, by omega, by omega⟩

/-- What one call does is permitted unless it parses a beacon it should not. -/
theorem interruptScanResult_permitted_iff
    (hend : s.pBeaconInfo + s.bytesLeft = rsp.BSSDescriptSize.toNat) :
    (∀ e ∈ (interruptScanResult fields sizeofItem buffer stack s).accesses c,
      Permitted sizeofItem buffer rsp c s e) ↔
    ∀ size, Takes sizeofItem buffer c s size → 6 ≤ size ∧ size < 18 ∧
      (s.ScanResultcount.toNat + 1) * sizeofItem ≤ buffer.ScanResulMuxsize.toNat := by
  by_cases htakes : ∃ size, Takes sizeofItem buffer c s size
  · obtain ⟨size, htakes⟩ := htakes
    obtain ⟨hleft, -, hfits, hdeclared⟩ := beaconAt_eq_some htakes.beacon
    rw [(interruptScanResult_takes htakes).2, List.forall_mem_append,
      parzeBSSDescription_permitted_iff hdeclared (by omega)]
    constructor
    · rintro ⟨-, hparse⟩ size' htakes'
      cases htakes.beacon.symm.trans htakes'.beacon
      exact hparse
    · intro h
      exact ⟨beaconSize_permitted hend, h size htakes⟩
  · have hskips : ∀ size, ¬ Takes sizeofItem buffer c s size := fun size h => htakes ⟨size, h⟩
    rw [(interruptScanResult_skips hskips).2]
    constructor
    · intro _ size h
      exact absurd h (hskips size)
    · intro _
      exact beaconSize_permitted hend

end Call

/-! ## The whole response -/

section Response

variable {sizeofItem : ℕ} {buffer : ResultBuffer} {stack : Stack} {rsp : ScanRsp}
  {c : Cells Buf UInt8} {s : State} {n : ℕ}

/-- `pBeaconInfo` plus `bytesLeft` stays where it is. -/
theorem interruptScanResult_end :
    ((interruptScanResult fields sizeofItem buffer stack s).result c).2.pBeaconInfo +
      ((interruptScanResult fields sizeofItem buffer stack s).result c).2.bytesLeft =
    s.pBeaconInfo + s.bytesLeft := by
  by_cases htakes : ∃ size, Takes sizeofItem buffer c s size
  · obtain ⟨size, htakes⟩ := htakes
    obtain ⟨hleft, -, hfits, -⟩ := beaconAt_eq_some htakes.beacon
    rw [(interruptScanResult_takes htakes).1]
    change s.pBeaconInfo + 2 + size + (s.bytesLeft - 2 - size) = _
    omega
  · rw [(interruptScanResult_skips fun size h => htakes ⟨size, h⟩).1]
    rfl

theorem after_zero :
    after sizeofItem buffer rsp stack c 0 =
      ⟨0, rsp.BSSDescriptSize.toNat, buffer.ScanResultcount⟩ := rfl

theorem after_succ :
    after sizeofItem buffer rsp stack c (n + 1) =
      if (after sizeofItem buffer rsp stack c n).bytesLeft = 0 then
        after sizeofItem buffer rsp stack c n
      else ((interruptScanResult fields sizeofItem buffer stack
        (after sizeofItem buffer rsp stack c n)).result
          (cellsAfter sizeofItem buffer rsp stack c n)).2 := by
  unfold after
  rw [beacons, result_bind]
  split
  · rfl
  · rfl

theorem after_end :
    (after sizeofItem buffer rsp stack c n).pBeaconInfo +
      (after sizeofItem buffer rsp stack c n).bytesLeft = rsp.BSSDescriptSize.toNat := by
  induction n with
  | zero =>
    rw [after_zero]
    exact Nat.zero_add _
  | succ n ih =>
    rw [after_succ]
    split
    · exact ih
    · rw [interruptScanResult_end]
      exact ih

theorem beaconAt_cellsAfter (pos left : ℕ) :
    beaconAt (cellsAfter sizeofItem buffer rsp stack c n) pos left = beaconAt c pos left := by
  unfold beaconAt declared cellsAfter
  rw [keeps_beacons n c]

variable (sizeofItem buffer rsp c) in
/-- Whenever a beacon is parsed, it holds an address but not all of the fixed fields, and
    its item is in the buffer. -/
def Harmless : Prop :=
  rsp.NumberOfSets.toNat ≤ MRVDRV_MAX_BSSID_LIST → buffer.ScanResultInfo ≠ none →
  HasItem sizeofItem buffer buffer.ScanResultcount → ∀ n < rsp.NumberOfSets.toNat, ∀ size,
    beaconAt c (positions c rsp.BSSDescriptSize.toNat n).1
      (positions c rsp.BSSDescriptSize.toNat n).2 = some size →
    6 ≤ size ∧ size < 18 ∧
      (buffer.ScanResultcount.toNat + 1) * sizeofItem ≤ buffer.ScanResulMuxsize.toNat

variable (sizeofItem buffer rsp stack c) in
/-- As long as only such beacons are met, none is counted, and each call starts where the
    sizes before it say. -/
structure Uncounted (n : ℕ) : Prop where
  count : (after sizeofItem buffer rsp stack c n).ScanResultcount = buffer.ScanResultcount
  position : buffer.ScanResultInfo ≠ none →
    HasItem sizeofItem buffer buffer.ScanResultcount →
    ((after sizeofItem buffer rsp stack c n).pBeaconInfo,
      (after sizeofItem buffer rsp stack c n).bytesLeft) =
      positions c rsp.BSSDescriptSize.toNat n

theorem pastBeacon_of_some {pos left size : ℕ} (h : beaconAt c pos left = some size) :
    pastBeacon c pos left = (pos + 2 + size, left - 2 - size) := by
  unfold pastBeacon
  rw [h]

theorem pastBeacon_of_none {pos left : ℕ} (h : beaconAt c pos left = none) :
    pastBeacon c pos left = (pos + left, 0) := by
  unfold pastBeacon
  rw [h]

theorem beaconAt_zero (pos : ℕ) : beaconAt c pos 0 = none := if_neg (by omega)

theorem uncounted_zero : Uncounted sizeofItem buffer stack rsp c 0 where
  count := by rw [after_zero]
  position _ _ := by rw [after_zero]; rfl

theorem Uncounted.succ (h : Uncounted sizeofItem buffer stack rsp c n)
    (hshort : buffer.ScanResultInfo ≠ none → HasItem sizeofItem buffer buffer.ScanResultcount →
      ∀ size, beaconAt c (positions c rsp.BSSDescriptSize.toNat n).1
        (positions c rsp.BSSDescriptSize.toNat n).2 = some size → size < 18) :
    Uncounted sizeofItem buffer stack rsp c (n + 1) := by
  have hpos : buffer.ScanResultInfo ≠ none → HasItem sizeofItem buffer buffer.ScanResultcount →
      positions c rsp.BSSDescriptSize.toNat (n + 1) =
        pastBeacon c (after sizeofItem buffer rsp stack c n).pBeaconInfo
          (after sizeofItem buffer rsp stack c n).bytesLeft := by
    intro hinfo hitem
    rw [positions, ← h.position hinfo hitem]
  by_cases hleft : (after sizeofItem buffer rsp stack c n).bytesLeft = 0
  · have hnext : after sizeofItem buffer rsp stack c (n + 1) =
        after sizeofItem buffer rsp stack c n := by rw [after_succ, if_pos hleft]
    refine ⟨by rw [hnext, h.count], fun hinfo hitem => ?_⟩
    rw [hpos hinfo hitem, hnext, hleft, pastBeacon_of_none (beaconAt_zero _)]
    rfl
  have hnext := @after_succ sizeofItem buffer stack rsp c n
  rw [if_neg hleft] at hnext
  by_cases htakes : ∃ size, Takes sizeofItem buffer (cellsAfter sizeofItem buffer rsp stack c n)
      (after sizeofItem buffer rsp stack c n) size
  · obtain ⟨size, htakes⟩ := htakes
    have hbeacon := htakes.beacon
    have hitem := htakes.item
    rw [beaconAt_cellsAfter] at hbeacon
    rw [h.count] at hitem
    have hsize : size < 18 := by
      refine hshort htakes.info hitem size ?_
      rw [← h.position htakes.info hitem]
      exact hbeacon
    rw [(interruptScanResult_takes htakes).1, result_parzeBSSDescription, if_pos hsize,
      if_neg (by decide)] at hnext
    refine ⟨by rw [hnext]; exact h.count, fun hinfo hitem => ?_⟩
    rw [hpos hinfo hitem, hnext, pastBeacon_of_some hbeacon]
  · rw [(interruptScanResult_skips fun size h => htakes ⟨size, h⟩).1] at hnext
    refine ⟨by rw [hnext]; exact h.count, fun hinfo hitem => ?_⟩
    have hbeacon : beaconAt c (after sizeofItem buffer rsp stack c n).pBeaconInfo
        (after sizeofItem buffer rsp stack c n).bytesLeft = none := by
      by_contra hsome
      obtain ⟨size, hsize⟩ := Option.ne_none_iff_exists'.mp hsome
      refine htakes ⟨size, ?_, hinfo, by rwa [h.count]⟩
      rw [beaconAt_cellsAfter]
      exact hsize
    rw [hpos hinfo hitem, hnext, pastBeacon_of_none hbeacon]
    rfl

theorem Uncounted.permitted_iff (h : Uncounted sizeofItem buffer stack rsp c n) :
    ((after sizeofItem buffer rsp stack c n).bytesLeft ≠ 0 →
      ∀ e ∈ callAccesses sizeofItem buffer rsp stack c n,
        Permitted sizeofItem buffer rsp (cellsAfter sizeofItem buffer rsp stack c n)
          (after sizeofItem buffer rsp stack c n) e) ↔
    (buffer.ScanResultInfo ≠ none → HasItem sizeofItem buffer buffer.ScanResultcount →
      ∀ size, beaconAt c (positions c rsp.BSSDescriptSize.toNat n).1
        (positions c rsp.BSSDescriptSize.toNat n).2 = some size →
      6 ≤ size ∧ size < 18 ∧
        (buffer.ScanResultcount.toNat + 1) * sizeofItem ≤ buffer.ScanResulMuxsize.toNat) := by
  unfold callAccesses
  rw [interruptScanResult_permitted_iff after_end]
  constructor
  · intro hcall hinfo hitem size hbeacon
    rw [← h.position hinfo hitem] at hbeacon
    have hleft : (after sizeofItem buffer rsp stack c n).bytesLeft ≠ 0 := by
      intro hzero
      rw [hzero, beaconAt_zero] at hbeacon
      nomatch hbeacon
    rw [← h.count]
    refine hcall hleft size ⟨?_, hinfo, by rwa [h.count]⟩
    rw [beaconAt_cellsAfter]
    exact hbeacon
  · rintro hbeacons - size ⟨hbeacon, hinfo, hitem⟩
    rw [beaconAt_cellsAfter] at hbeacon
    rw [h.count] at hitem ⊢
    refine hbeacons hinfo hitem size ?_
    rw [← h.position hinfo hitem]
    exact hbeacon

/-- As long as each beacon met is short, none is counted. -/
theorem uncounted_of_short
    (hshort : ∀ n, Parses rsp (n + 1) → Uncounted sizeofItem buffer stack rsp c n →
      buffer.ScanResultInfo ≠ none → HasItem sizeofItem buffer buffer.ScanResultcount →
      ∀ size, beaconAt c (positions c rsp.BSSDescriptSize.toNat n).1
        (positions c rsp.BSSDescriptSize.toNat n).2 = some size → size < 18)
    (hn : Parses rsp n) : Uncounted sizeofItem buffer stack rsp c n := by
  induction n with
  | zero => exact uncounted_zero
  | succ n ih =>
    have hn' := ih ⟨hn.1, Nat.le_of_lt hn.2⟩
    exact hn'.succ (hshort n hn hn')

theorem ScanOk.uncounted (h : ScanOk sizeofItem buffer rsp stack c) (hn : Parses rsp n) :
    Uncounted sizeofItem buffer stack rsp c n := by
  refine uncounted_of_short (fun m hm hcount hinfo hitem size hbeacon => ?_) hn
  exact (hcount.permitted_iff.mp (h.inside m hm) hinfo hitem size hbeacon).2.1

theorem Harmless.uncounted (h : Harmless sizeofItem buffer rsp c) (hn : Parses rsp n) :
    Uncounted sizeofItem buffer stack rsp c n := by
  refine uncounted_of_short (fun m hm _ hinfo hitem size hbeacon => ?_) hn
  exact (h hm.1 hinfo hitem m hm.2 size hbeacon).2.1

theorem Harmless.room (h : Harmless sizeofItem buffer rsp c) :
    ((wlanparserScanResult fields sizeofItem buffer stack rsp).result c).2 =
      buffer.ScanResultcount.toNat := by
  unfold wlanparserScanResult
  by_cases hsets : MRVDRV_MAX_BSSID_LIST < rsp.NumberOfSets.toNat
  · rw [if_pos hsets]
    rfl
  · rw [if_neg hsets]
    have hlast := @Harmless.uncounted sizeofItem buffer stack rsp c _ h
      ⟨Nat.not_lt.mp hsets, le_rfl⟩
    exact congrArg UInt32.toNat hlast.count

theorem ScanOk.harmless (h : ScanOk sizeofItem buffer rsp stack c) :
    Harmless sizeofItem buffer rsp c := by
  intro hsets hinfo hitem n hn
  exact (h.uncounted ⟨hsets, Nat.le_of_lt hn⟩).permitted_iff.mp (h.inside n ⟨hsets, hn⟩)
    hinfo hitem

theorem Harmless.scanOk (h : Harmless sizeofItem buffer rsp c)
    (hroom : buffer.ScanResultcount.toNat * sizeofItem ≤ buffer.ScanResulMuxsize.toNat) :
    ScanOk sizeofItem buffer rsp stack c where
  sameEnd _ _ := after_end
  inside n hn := by
    refine (h.uncounted ⟨hn.1, Nat.le_of_lt hn.2⟩).permitted_iff.mpr fun hinfo hitem size => ?_
    exact h hn.1 hinfo hitem n hn.2 size
  room := by rwa [h.room]

/-- The parser is safe on exactly the responses that give it nothing to parse but
    beacons it gives up on after the address. -/
theorem scanOk_iff (sizeofItem : ℕ) (buffer : ResultBuffer) (rsp : ScanRsp) (stack : Stack)
    (c : Cells Buf UInt8)
    (hroom : buffer.ScanResultcount.toNat * sizeofItem ≤ buffer.ScanResulMuxsize.toNat) :
    ScanOk sizeofItem buffer rsp stack c ↔ Harmless sizeofItem buffer rsp c :=
  ⟨ScanOk.harmless, fun h => h.scanOk hroom⟩

/-- A description of these bytes, with all else zero. -/
def ofBytes (bytes : List UInt8) : Cells Buf UInt8
  | .description, i => bytes.getD i.toNat 0
  | _, _ => 0

/-- Room for twenty items. -/
def emptyBuffer : ResultBuffer := ⟨some 0x20000000, 1760, 0⟩

/-- A beacon that ends behind its address and the four bytes after it. -/
def truncated : Cells Buf UInt8 := ofBytes [10, 0, 0x00, 0x1f, 0x33, 0x10, 0x20, 0x30, 60, 1, 2, 3]

/-- An open network called `home` on channel 6. -/
def home : Cells Buf UInt8 := ofBytes
  [34, 0, 0x00, 0x1f, 0x33, 0x10, 0x20, 0x30, 60, 0, 0, 0, 0, 0, 0, 0, 0, 100, 0, 0x01, 0x00,
    0, 4, 104, 111, 109, 101, 1, 4, 0x82, 0x84, 0x8b, 0x96, 3, 1, 6]

theorem truncated_scanOk : ScanOk 88 emptyBuffer ⟨12, 1⟩ (fun _ => 0) truncated := by
  refine (scanOk_iff 88 emptyBuffer ⟨12, 1⟩ (fun _ => 0) truncated (by decide)).mpr ?_
  intro _ _ _ n hn size hbeacon
  have hn : n < 1 := hn
  obtain rfl : n = 0 := by omega
  have hsize : beaconAt truncated 0 12 = some 10 := by decide
  cases hsize.symm.trans hbeacon
  decide

/-- Parsing the beacon of an ordinary access point follows `pCap`. -/
theorem home_not_scanOk :
    emptyBuffer.ScanResultcount.toNat * 88 ≤ emptyBuffer.ScanResulMuxsize.toNat ∧
      ¬ ScanOk 88 emptyBuffer ⟨36, 1⟩ (fun _ => 0) home := by
  refine ⟨by decide, fun h => ?_⟩
  have hsize : beaconAt home 0 36 = some 34 := by decide
  have hshort := h.harmless (by decide) (by decide) (by decide) 0 (by decide) 34 hsize
  exact absurd hshort.2.1 (by decide)

end Response

end ScanResult

end Wlan
