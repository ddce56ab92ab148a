-- SUMMARY: Framing on the bus: the copies gspi_io.c makes for each of its callers.
import LynxFly.Base.ByteCopy
import LynxFly.Wifi.Constants

/-!
# The bus

`gspi_write_data_direct` and `gspi_read_data_direct` (`gspi_io.c`) move whole words between
the caller's memory and a buffer each of their own, behind the word that names the register.
`sbi_host_to_card` and `sbi_card_to_host` (`if_gspi.c`) turn lengths into words, and the
register accesses are transfers of a fixed number of words.
-/

open Buffers Buffers.Prog Wlan

namespace GspiIo

inductive Buf where
  | transmittembuf
  | rectembuf
  /-- What the caller passes. -/
  | data
  | reg
  /-- What is at address 0. -/
  | null
  deriving DecidableEq

/-- `MRVDRV_MAXIMUM_ETH_PACKET_SIZE + sizeof(RxPD) + MRVDRV_SNAP_HEADER_LEN + EXTRA_LEN`. -/
def MRVDRV_ETH_RX_PACKET_BUFFER_SIZE : ℕ := 1514 + 20 + 8 + 36
def sizeofHostCmd : ℕ := 1040

/-- `1--Cmd, 0--Data`. -/
inductive Port where
  | data
  | cmd

/-- What is sent: a packet of a length `SendSinglePacket` admits, in `TmpTxBuf`, or a
    command of a size that fits `HostCmd_DS_COMMAND`. -/
inductive Payload where
  | packet (tot_len : ℕ) (h : tot_len < 2048)
  | command (Size : ℕ) (h : Size ≤ sizeofHostCmd)

namespace Payload

/-- `nb` of `sbi_host_to_card`. -/
def nb : Payload → ℕ
  | packet tot_len _ => tot_len + sizeofTxPD
  | command Size _ => Size

/-- The memory the payload is at the start of. -/
def size : Payload → ℕ
  | packet _ _ => WLAN_UPLD_SIZE
  | command _ _ => sizeofHostCmd

end Payload

/-- A transfer, by the function that asks for it. -/
inductive Call where
  | gspiReadReg
  | gspiReadReg32
  | gspiWriteReg
  /-- `sbi_card_to_host`; the scratch register reports this length. -/
  | sbiCardToHost (type : Port) (len : UInt16)
  | sbiHostToCard (payload : Payload)

/-! ## The code -/

section Code

/-- `gspi_write_data_direct`, and how many bytes it sends. -/
def gspiWriteDataDirect (n : ℕ) : Prog Buf UInt8 ℕ := do
  let n := n * 2 % 2 ^ 16
  copy .transmittembuf 0 .reg 0 2
  copy .transmittembuf 2 .data 0 (n - 2)
  if n % 4 ≠ 0 then do
    -- `rt_memcpy` from `0x00`
    copy .transmittembuf n .null 0 2
    pure (n + 2)
  else pure n

/-- `gspi_read_data_direct`, when the device sends these bytes. -/
def gspiReadDataDirect (g_dummy_clk_ioport n : ℕ) (device : ℕ → UInt8) :
    Prog Buf UInt8 ℕ := do
  let n := (n + g_dummy_clk_ioport) * 2 % 2 ^ 16
  loop n fun i => wr .rectembuf i (device i)
  copy .data 0 .rectembuf (g_dummy_clk_ioport * 2) (n - g_dummy_clk_ioport * 2)
  pure n

/-- `if (len & 0x0001) len += 1`. -/
def evenLen (len : ℕ) : ℕ := (if len % 2 = 1 then len + 1 else len) % 2 ^ 16

/-- The words passed on for an even length. -/
def words (len : ℕ) : ℕ := if len % 4 = 0 then len / 2 + 1 else len / 2 + 2

/-- `npayload` of the two callers of `sbi_card_to_host`. -/
def Port.npayload : Port → ℕ
  | data => MRVDRV_ETH_RX_PACKET_BUFFER_SIZE
  | cmd => WLAN_UPLD_SIZE

/-- The length `sbi_card_to_host` reads with. -/
def checkedLen (npayload len : ℕ) : ℕ :=
  if len = 0 ∨ npayload < len then MRVDRV_ETH_RX_PACKET_BUFFER_SIZE else len

/-- The transfer of a call, and how many bytes go over the bus. -/
def Call.transfer (g_dummy_clk_ioport : Fin 2) (device : ℕ → UInt8) : Call → Prog Buf UInt8 ℕ
  | gspiReadReg => gspiReadDataDirect g_dummy_clk_ioport 2 device
  | gspiReadReg32 => gspiReadDataDirect g_dummy_clk_ioport 4 device
  | gspiWriteReg => gspiWriteDataDirect 2
  | sbiCardToHost type len =>
    gspiReadDataDirect g_dummy_clk_ioport (words (evenLen (checkedLen type.npayload len.toNat)))
      device
  | sbiHostToCard payload => gspiWriteDataDirect (words (evenLen payload.nb))

end Code

/-! ## Staying inside -/

/-- The size of each buffer; `u16`, `u16[3]` and `u16` are what the register accesses pass.
    `nullSize` is that of the object at address 0, of which C knows none. -/
def Call.size (nullSize : ℕ) (call : Call) : Buf → ℕ
  | .transmittembuf => 2048
  | .rectembuf => 2048 + 1024
  | .reg => 2
  | .null => nullSize
  | .data =>
    match call with
    | gspiReadReg | gspiWriteReg => 2
    | gspiReadReg32 => 6
    | sbiCardToHost type _ => type.npayload
    | sbiHostToCard payload => payload.size

section BusOk

variable (nullSize : ℕ) (g_dummy_clk_ioport : Fin 2) (device : ℕ → UInt8) (c : Cells Buf UInt8)

/-- Every copy stays inside, and what is sent has the payload behind the register. -/
structure BusOk (call : Call) : Prop where
  inside : ∀ e ∈ (call.transfer g_dummy_clk_ioport device).accesses c,
    e.Inside (call.size nullSize)
  sent : ∀ payload, call = .sbiHostToCard payload →
    2 + payload.nb ≤ (call.transfer g_dummy_clk_ioport device).result c ∧
      slice ((call.transfer g_dummy_clk_ioport device).exec c) .transmittembuf 0 (2 + payload.nb) =
        slice c .reg 0 2 ++ slice c .data 0 payload.nb

/-- What keeps the copies of a call inside. -/
def Call.Fits : Call → Prop
  | gspiReadReg | gspiReadReg32 => False
  | gspiWriteReg => True
  | sbiCardToHost .data len => 1 ≤ len.toNat ∧ len.toNat ≤ 1576
  | sbiCardToHost .cmd len => ¬ (2309 ≤ len.toNat ∧ len.toNat ≤ 2312)
  | sbiHostToCard (.packet tot_len _) => 2 ≤ nullSize ∧ tot_len ≤ 2020
  | sbiHostToCard (.command _ _) => 2 ≤ nullSize

end BusOk

section Transfers

variable {nullSize n : ℕ} {g_dummy_clk_ioport : Fin 2} {device : ℕ → UInt8} {c : Cells Buf UInt8}
variable {size : Buf → ℕ}

theorem gspiWriteDataDirect_inside_iff (hn : n * 2 < 2 ^ 16) :
    (∀ e ∈ (gspiWriteDataDirect n).accesses c, e.Inside size) ↔
      (2 ≤ size .transmittembuf ∧ 2 ≤ size .reg) ∧
      (n ≤ 1 ∨ n * 2 ≤ size .transmittembuf ∧ n * 2 - 2 ≤ size .data) ∧
      (n % 2 = 0 ∨ n * 2 + 2 ≤ size .transmittembuf ∧ 2 ≤ size .null) := by
  unfold gspiWriteDataDirect
  rw [Nat.mod_eq_of_lt hn]
  by_cases hpad : n * 2 % 4 ≠ 0
  · simp only [if_pos hpad, accesses_bind, List.forall_mem_append, copy_inside_iff, accesses_pure,
      List.append_nil]
    omega
  · simp only [if_neg hpad, accesses_bind, List.forall_mem_append, copy_inside_iff, accesses_pure,
      List.append_nil]
    omega

theorem gspiReadDataDirect_inside_iff {g : ℕ} (hn : (n + g) * 2 < 2 ^ 16) (hpos : n ≠ 0) :
    (∀ e ∈ (gspiReadDataDirect g n device).accesses c, e.Inside size) ↔
      (n + g) * 2 ≤ size .rectembuf ∧ n * 2 ≤ size .data := by
  have hloop : (∀ e ∈ (loop ((n + g) * 2) fun i => wr Buf.rectembuf i (device i)).accesses c,
      e.Inside size) ↔ (n + g) * 2 ≤ size .rectembuf := by
    simp only [mem_accesses_loop_iff, accesses_wr, List.mem_singleton]
    constructor
    · intro h
      have hlast := h (.write .rectembuf ((n + g) * 2 - 1 : ℕ)) ⟨_, by omega, rfl⟩
      have hlt := hlast.2
      omega
    · rintro h e ⟨i, hi, rfl⟩
      exact ⟨by omega, by omega⟩
  unfold gspiReadDataDirect
  rw [Nat.mod_eq_of_lt hn]
  simp only [accesses_bind, List.forall_mem_append, copy_inside_iff, hloop, accesses_pure,
    List.append_nil]
  omega

/-- In bytes: the length rounded up to four, and two for the register. -/
theorem words_evenLen {len : ℕ} (hlen : len < 2 ^ 15) :
    words (evenLen len) * 2 = (len + 3) / 4 * 4 + 2 := by
  have heven : evenLen len = len + len % 2 := by
    unfold evenLen
    split
    · omega
    · omega
  rw [heven, words]
  split
  · omega
  · omega

theorem result_gspiWriteDataDirect (hn : n * 2 < 2 ^ 16) (hodd : n % 2 = 1) :
    (gspiWriteDataDirect n).result c = n * 2 + 2 := by
  unfold gspiWriteDataDirect
  rw [Nat.mod_eq_of_lt hn]
  simp only [result_bind, if_pos (show n * 2 % 4 ≠ 0 by omega), result_pure]

/-- The register comes first, and the data behind it, whatever is added to it. -/
theorem slice_gspiWriteDataDirect {nb : ℕ} (hn : n * 2 < 2 ^ 16) (hodd : n % 2 = 1)
    (hnb : 2 + nb ≤ n * 2) : slice ((gspiWriteDataDirect n).exec c) .transmittembuf 0 (2 + nb) =
      slice c .reg 0 2 ++ slice c .data 0 nb := by
  have hreg (d s m : ℕ) : Apart Buf.transmittembuf d .reg s m := .inl nofun
  have hdata (d s m : ℕ) : Apart Buf.transmittembuf d .data s m := .inl nofun
  have hnull (d s m : ℕ) : Apart Buf.transmittembuf d .null s m := .inl nofun
  unfold gspiWriteDataDirect
  rw [Nat.mod_eq_of_lt hn]
  simp only [exec_bind, if_pos (show n * 2 % 4 ≠ 0 by omega), exec_pure]
  rw [slice_copy_of_apart (hnull _ _ _) (.inl (by omega)), slice_add,
    slice_copy_of_apart (hdata _ _ _) (.inl (by omega)), slice_copy (hreg _ _ _), Nat.zero_add]
  have hne : Buf.data ≠ .transmittembuf := nofun
  refine congrArg _ ?_
  rw [show 2 = 2 + 0 from rfl, slice_copy_part (hdata _ _ _) (by omega),
    slice_copy_of_ne hne (hreg _ _ _)]

theorem Payload.nb_lt (payload : Payload) : payload.nb < 2 ^ 12 := by
  cases payload with
  | packet tot_len h =>
    rw [nb, sizeofTxPD]
    omega
  | command Size h =>
    rw [nb]
    rw [sizeofHostCmd] at h
    omega

/-- What is read goes to the caller whole, two bytes for each word. -/
theorem busOk_read_iff {call : Call}
    (htransfer : call.transfer g_dummy_clk_ioport device =
      gspiReadDataDirect g_dummy_clk_ioport n device)
    (hn : n < 2 ^ 11) (hpos : n ≠ 0) (hfits : (n + 1) * 2 ≤ 3072)
    (hcall : ∀ payload, .sbiHostToCard payload ≠ call) :
    BusOk nullSize g_dummy_clk_ioport device c call ↔ n * 2 ≤ call.size nullSize .data := by
  have hg : (g_dummy_clk_ioport : ℕ) < 2 := g_dummy_clk_ioport.isLt
  have hrect : call.size nullSize .rectembuf = 3072 := rfl
  have hinside : (∀ e ∈ (call.transfer g_dummy_clk_ioport device).accesses c,
      e.Inside (call.size nullSize)) ↔ n * 2 ≤ call.size nullSize .data := by
    rw [htransfer, gspiReadDataDirect_inside_iff (by omega) hpos, hrect]
    omega
  constructor
  · intro h
    exact hinside.mp h.inside
  · intro h
    exact ⟨hinside.mpr h, fun payload heq => absurd heq.symm (hcall payload)⟩

/-- A payload is followed by two bytes that make the words even, from address 0. -/
theorem busOk_sbiHostToCard_iff (payload : Payload) :
    BusOk nullSize g_dummy_clk_ioport device c (.sbiHostToCard payload) ↔
      (payload.nb + 3) / 4 * 4 ≤ payload.size ∧ (payload.nb + 3) / 4 * 4 + 4 ≤ 2048 ∧
        2 ≤ nullSize := by
  have hlt := payload.nb_lt
  have hwords : words (evenLen payload.nb) * 2 = (payload.nb + 3) / 4 * 4 + 2 :=
    words_evenLen (by omega)
  have hinside :
      (∀ e ∈ ((Call.sbiHostToCard payload).transfer g_dummy_clk_ioport device).accesses c,
        e.Inside ((Call.sbiHostToCard payload).size nullSize)) ↔
      (payload.nb + 3) / 4 * 4 ≤ payload.size ∧ (payload.nb + 3) / 4 * 4 + 4 ≤ 2048 ∧
        2 ≤ nullSize := by
    change (∀ e ∈ (gspiWriteDataDirect (words (evenLen payload.nb))).accesses c, _) ↔ _
    rw [gspiWriteDataDirect_inside_iff (by omega)]
    change (2 ≤ 2048 ∧ 2 ≤ 2) ∧ (_ ∨ _ ≤ 2048 ∧ _ ≤ payload.size) ∧
      (_ ∨ _ ≤ 2048 ∧ 2 ≤ nullSize) ↔ _
    omega
  constructor
  · intro h
    exact hinside.mp h.inside
  · intro h
    refine ⟨hinside.mpr h, fun payload' heq => ?_⟩
    cases heq
    constructor
    · change _ ≤ (gspiWriteDataDirect (words (evenLen payload.nb))).result c
      rw [result_gspiWriteDataDirect (by omega) (by omega)]
      omega
    · exact slice_gspiWriteDataDirect (by omega) (by omega) (by omega)

theorem checkedLen_le (type : Port) (len : ℕ) : checkedLen type.npayload len ≤ 2312 := by
  have hpayload : type.npayload ≤ 2312 := by
    cases type with
    | data => decide
    | cmd => decide
  unfold checkedLen
  split
  case isTrue => decide
  case isFalse h => omega

/-- The length `sbi_card_to_host` reads with is rounded up to four, and two bytes more
    are read. -/
theorem busOk_sbiCardToHost_iff (type : Port) (len : UInt16) :
    BusOk nullSize g_dummy_clk_ioport device c (.sbiCardToHost type len) ↔
      (checkedLen type.npayload len.toNat + 3) / 4 * 4 + 2 ≤ type.npayload := by
  have hchecked := checkedLen_le type len.toNat
  have hwords : words (evenLen (checkedLen type.npayload len.toNat)) * 2 =
      (checkedLen type.npayload len.toNat + 3) / 4 * 4 + 2 := words_evenLen (by omega)
  have hcall : ∀ payload, Call.sbiHostToCard payload ≠ .sbiCardToHost type len := fun _ h => by
    cases h
  rw [busOk_read_iff rfl (by omega) (by omega) (by omega) hcall, hwords]
  exact Iff.rfl

/-- A length of zero, or above what the caller has room for, is replaced by one that fits a
    command but not a packet. -/
theorem fits_sbiCardToHost_iff (type : Port) (len : UInt16) :
    (Call.sbiCardToHost type len).Fits nullSize ↔
      (checkedLen type.npayload len.toNat + 3) / 4 * 4 + 2 ≤ type.npayload := by
  cases type with
  | data =>
    change 1 ≤ len.toNat ∧ len.toNat ≤ 1576 ↔ (checkedLen 1578 len.toNat + 3) / 4 * 4 + 2 ≤ 1578
    unfold checkedLen MRVDRV_ETH_RX_PACKET_BUFFER_SIZE
    split
    case isTrue h => omega
    case isFalse h => omega
  | cmd =>
    change ¬ (2309 ≤ len.toNat ∧ len.toNat ≤ 2312) ↔
      (checkedLen 2312 len.toNat + 3) / 4 * 4 + 2 ≤ 2312
    unfold checkedLen MRVDRV_ETH_RX_PACKET_BUFFER_SIZE
    split
    case isTrue h => omega
    case isFalse h => omega

theorem fits_sbiHostToCard_iff (payload : Payload) : (Call.sbiHostToCard payload).Fits nullSize ↔
    (payload.nb + 3) / 4 * 4 ≤ payload.size ∧ (payload.nb + 3) / 4 * 4 + 4 ≤ 2048 ∧
      2 ≤ nullSize := by
  cases payload with
  | packet tot_len h =>
    change _ ∧ _ ↔ (tot_len + 24 + 3) / 4 * 4 ≤ 2312 ∧ (tot_len + 24 + 3) / 4 * 4 + 4 ≤ 2048 ∧ _
    omega
  | command Size h =>
    have hSize : Size ≤ 1040 := h
    change 2 ≤ nullSize ↔ (Size + 3) / 4 * 4 ≤ 1040 ∧ (Size + 3) / 4 * 4 + 4 ≤ 2048 ∧ _
    omega

/-- A transfer is in order exactly when what it copies fits. -/
theorem busOk_iff (nullSize : ℕ) (g_dummy_clk_ioport : Fin 2) (device : ℕ → UInt8)
    (c : Cells Buf UInt8) (call : Call) :
    BusOk nullSize g_dummy_clk_ioport device c call ↔ call.Fits nullSize := by
  cases call with
  | gspiReadReg =>
    rw [busOk_read_iff rfl (by omega) (by omega) (by omega) fun _ h => by cases h]
    exact iff_of_false (by decide : ¬ 2 * 2 ≤ 2) id
  | gspiReadReg32 =>
    rw [busOk_read_iff rfl (by omega) (by omega) (by omega) fun _ h => by cases h]
    exact iff_of_false (by decide : ¬ 4 * 2 ≤ 6) id
  | gspiWriteReg =>
    refine ⟨fun _ => trivial, fun _ => ⟨?_, fun _ h => by cases h⟩⟩
    change ∀ e ∈ (gspiWriteDataDirect 2).accesses c, _
    rw [gspiWriteDataDirect_inside_iff (by omega)]
    change (2 ≤ 2048 ∧ 2 ≤ 2) ∧ (2 ≤ 1 ∨ 2 * 2 ≤ 2048 ∧ 2 * 2 - 2 ≤ 2) ∧ (2 % 2 = 0 ∨ _)
    exact ⟨by omega, by omega, .inl rfl⟩
  | sbiCardToHost type len => rw [busOk_sbiCardToHost_iff, fits_sbiCardToHost_iff]
  | sbiHostToCard payload => rw [busOk_sbiHostToCard_iff, fits_sbiHostToCard_iff]

/-- Reading a register puts four bytes into a `u16`. -/
theorem gspiReadReg_not_busOk :
    ¬ BusOk 0 0 (fun _ => 0) (fun _ _ => 0) .gspiReadReg := by
  intro h
  have hwrite := h.inside (.write .data 3) (by decide)
  exact absurd hwrite.2 (by decide)

end Transfers

end GspiIo
