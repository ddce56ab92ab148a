-- SUMMARY: The I2C driver of stm32f4_i2c_dma.c: when its calls return, whatever the bus does.
import LynxFly.Base.Waiting

/-!
# stm32f4_i2c_dma.c

Every call waits for flags and events of the bus by polling, and for the end of a transfer by
polling a byte that a completion interrupt clears. All waits share the counter `I2C_TimeCnt`,
and so does the interrupt that ends a transfer to the bus.
-/

open Waiting

namespace I2CDma

def I2C_TIME : UInt32 := 65535
def SUCCESS : UInt32 := 1

/-! ## The bus and the memory -/

/-- What a poll asks the bus for: the flags, the events, and `CR1 & I2C_CR1_STOP`. -/
inductive Flag where
  | BUSY | BTF | ADDR | RXNE | STOP
  | MASTER_MODE_SELECT
  | MASTER_TRANSMITTER_MODE_SELECTED
  | MASTER_RECEIVER_MODE_SELECTED
  | MASTER_BYTE_TRANSMITTING
  | MASTER_BYTE_TRANSMITTED
  deriving DecidableEq

inductive Direction where
  | Transmitter | Receiver

/-- The DMA streams: from the bus, and to it. -/
inductive Stream where
  | Stream0 | Stream6

/-- What the driver tells the bus and the DMA. -/
inductive Command where
  | generateSTART
  | generateSTOP
  | send7bitAddress (Address : UInt8) (direction : Direction)
  | sendData (Data : UInt8)
  | acknowledgeConfig (NewState : Bool)
  | readSR2
  | dmaInit (stream : Stream) (Memory0BaseAddr : ℕ) (BufferSize : UInt32)
  | dmaLastTransferCmd
  | dmaCmd (stream : Stream) (NewState : Bool)
  | dmaClearFlag (stream : Stream)

/-- The file-level variables, the bytes of the memory, and the commands given. -/
structure Mem where
  I2C_ReadPtr : ℕ
  I2C_WritePtr : ℕ
  I2C_TimeCnt : UInt32
  byte : ℕ → UInt8
  commands : List Command

namespace Mem

def store (s : Mem) (p : ℕ) (v : UInt8) : Mem := { s with byte := Function.update s.byte p v }

def give (s : Mem) (c : Command) : Mem := { s with commands := s.commands ++ [c] }

end Mem

/-! ## Interrupts -/

/-- What comes between two steps of a call: a byte stored by the DMA, and the interrupts, with
    the transfer-complete flag of the stream and what the polls of the handler find. -/
inductive Arrival where
  | store (p : ℕ) (v : UInt8)
  | recv (TCIF0 : Bool)
  | send (TCIF6 : Bool) (BTF : ℕ → Bool)

/-- `while(!I2C_GetFlagStatus(I2C1, I2C_FLAG_BTF)) if((I2C_TimeCnt--) == 0) I2C_TimeOut();`,
    from poll `k` on. The counter it leaves, if it ends. -/
def pollBTF (BTF : ℕ → Bool) (k : ℕ) : ℕ → Option ℕ
  | 0 => if BTF k then some 0 else none
  | I2C_TimeCnt + 1 => if BTF k then some (I2C_TimeCnt + 1) else pollBTF BTF (k + 1) I2C_TimeCnt

/-- `I2C1_Send_DMA_IRQ`. -/
def i2c1SendDMAIRQ (TCIF6 : Bool) (BTF : ℕ → Bool) (s : Mem) : Option Mem := do
  if TCIF6 then
    let s := (s.give (.dmaCmd .Stream6 false)).give (.dmaClearFlag .Stream6)
    let I2C_TimeCnt ← pollBTF BTF 0 I2C_TIME.toNat
    let s := { s with I2C_TimeCnt := UInt32.ofNat I2C_TimeCnt }
    return (s.give .generateSTOP).store s.I2C_WritePtr 0
  else
    return s

/-- `I2C1_Recv_DMA_IRQ`. -/
def i2c1RecvDMAIRQ (TCIF0 : Bool) (s : Mem) : Mem :=
  if TCIF0 then
    let s := (s.give .generateSTOP).give (.dmaCmd .Stream0 false)
    let s := s.give (.dmaClearFlag .Stream0)
    s.store s.I2C_ReadPtr 0
  else s

/-- The memory after it, if its handler comes back. -/
def Arrival.apply (s : Mem) : Arrival → Option Mem
  | store p v => some (s.store p v)
  | recv TCIF0 => some (i2c1RecvDMAIRQ TCIF0 s)
  | send TCIF6 BTF => i2c1SendDMAIRQ TCIF6 BTF s

/-- The bus has sent the last byte before the handler's counter runs out. -/
def Arrival.Ends : Arrival → Prop
  | send true BTF => ∃ k ≤ I2C_TIME.toNat, BTF k = true
  | _ => True

theorem pollBTF_isSome_iff {BTF : ℕ → Bool} {I2C_TimeCnt : ℕ} (k : ℕ) :
    (pollBTF BTF k I2C_TimeCnt).isSome ↔ ∃ j ≤ I2C_TimeCnt, BTF (k + j) = true := by
  induction I2C_TimeCnt generalizing k with
  | zero => cases hBTF : BTF k <;> simp [pollBTF, hBTF]
  | succ n ih =>
    rw [pollBTF]
    split
    case isTrue hseen => exact iff_of_true rfl ⟨0, Nat.zero_le _, hseen⟩
    case isFalse hfail =>
      rw [ih]
      constructor
      · rintro ⟨j, hj, hseen⟩
        exact ⟨j + 1, by omega, by rwa [Nat.add_right_comm] at hseen⟩
      · rintro ⟨j, hj, hseen⟩
        cases j with
        | zero => exact absurd hseen hfail
        | succ j => exact ⟨j, by omega, by rwa [Nat.add_right_comm]⟩

theorem apply_isSome_iff {s : Mem} {a : Arrival} : (a.apply s).isSome ↔ a.Ends := by
  cases a with
  | store p v => exact iff_of_true rfl trivial
  | recv TCIF0 => exact iff_of_true rfl trivial
  | send TCIF6 BTF =>
    cases TCIF6 with
    | false => exact iff_of_true rfl trivial
    | true =>
      have hpoll : (pollBTF BTF 0 I2C_TIME.toNat).isSome ↔ ∃ j ≤ I2C_TIME.toNat, BTF j = true := by
        simp only [pollBTF_isSome_iff, Nat.zero_add]
      rw [Arrival.Ends, ← hpoll, Arrival.apply, i2c1SendDMAIRQ, if_pos rfl]
      cases pollBTF BTF 0 I2C_TIME.toNat <;> rfl

/-- What the environment has for one step of a call. -/
structure Moment where
  arrivals : List Arrival
  flag : Flag → Bool
  data : UInt8

def machine : Machine Mem Moment where
  cnt s := s.I2C_TimeCnt
  setCnt v s := { s with I2C_TimeCnt := v }
  interrupts i s := i.arrivals.foldlM Arrival.apply s

/-- The handlers come back whatever the memory. -/
theorem interrupts_isSome_iff {s : Mem} {i : Moment} :
    (machine.interrupts i s).isSome ↔ ∀ a ∈ i.arrivals, a.Ends := by
  obtain ⟨arrivals, flag, data⟩ := i
  change (arrivals.foldlM Arrival.apply s).isSome ↔ ∀ a ∈ arrivals, a.Ends
  induction arrivals generalizing s with
  | nil => exact iff_of_true rfl nofun
  | cons a arrivals ih =>
    rw [List.foldlM_cons, List.forall_mem_cons, ← apply_isSome_iff (s := s)]
    cases a.apply s with
    | none => exact iff_of_false nofun fun h => nomatch h.1
    | some s' => exact ih.trans ⟨fun h => ⟨rfl, h⟩, And.right⟩

/-! ## The calls -/

abbrev Prog := Code Mem Moment UInt8 UInt32

/-- `while(1) rt_thread_delay(rt_tick_from_millisecond(200));` -/
def i2cTimeOut : Prog := .hang

def give (c : Command) (next : Prog) : Prog := .exec (fun _ s => s.give c) next

def rewind (next : Prog) : Prog := .exec (fun _ s => { s with I2C_TimeCnt := I2C_TIME }) next

/-- `I2C_TimeCnt = I2C_TIME; while(!event) if((I2C_TimeCnt--) == 0) return I2C_TimeOut();` -/
def await (event : Moment → Mem → Bool) (next : Prog) : Prog :=
  rewind (.wait event i2cTimeOut next)

def set (flag : Flag) (i : Moment) (_ : Mem) : Bool := i.flag flag
def reset (flag : Flag) (i : Moment) (_ : Mem) : Bool := !i.flag flag

/-- The byte `*NumByte` is not `> 0` any more. -/
def done (NumByte : ℕ) (_ : Moment) (s : Mem) : Bool := s.byte NumByte == 0

/-- The receiving stream is set up and started. -/
def startRecv (ReadBuf NumByte : ℕ) (next : Prog) : Prog :=
  .load (fun s => s.byte NumByte) fun n =>
  give (.dmaInit .Stream0 ReadBuf n.toUInt32) <|
  give .dmaLastTransferCmd <|
  give (.dmaCmd .Stream0 true) next

/-- `I2C_DMA_Read`. -/
def i2cDMARead (ReadBuf : ℕ) (SlaveAddr ReadAddr : UInt8) (NumByte : ℕ) : Prog :=
  .exec (fun _ s => { s with I2C_ReadPtr := NumByte }) <|
  await (reset .BUSY) <|
  give .generateSTART <|
  await (set .MASTER_MODE_SELECT) <|
  give (.send7bitAddress SlaveAddr .Transmitter) <|
  await (set .MASTER_TRANSMITTER_MODE_SELECTED) <|
  give (.sendData ReadAddr) <|
  await (set .BTF) <|
  give .generateSTART <|
  await (set .MASTER_MODE_SELECT) <|
  give (.send7bitAddress SlaveAddr .Receiver) <|
  .load (fun s => s.byte NumByte) fun n =>
  if n.toUInt16 < 2 then
    await (set .ADDR) <|
    give (.acknowledgeConfig false) <|
    give .readSR2 <|
    give .generateSTOP <|
    await (set .RXNE) <|
    .exec (fun i s => s.store ReadBuf i.data) <|
    -- `(u16)(*NumByte)--`, which wraps for no byte at all
    .load (fun s => s.byte NumByte) fun n =>
    .exec (fun _ s => s.store NumByte (n - 1)) <|
    await (reset .STOP) <|
    give (.acknowledgeConfig true) <|
    await (done NumByte) (.ret SUCCESS)
  else
    await (set .MASTER_RECEIVER_MODE_SELECTED) <|
    startRecv ReadBuf NumByte <|
    await (done NumByte) (.ret SUCCESS)

/-- `I2C_DMA_Write`. -/
def i2cDMAWrite (WriteBuf : ℕ) (SlaveAddr WriteAddr : UInt8) (NumByte : ℕ) : Prog :=
  .exec (fun _ s => { s with I2C_WritePtr := NumByte }) <|
  await (reset .BUSY) <|
  give .generateSTART <|
  await (set .MASTER_MODE_SELECT) <|
  rewind <|
  give (.send7bitAddress SlaveAddr .Transmitter) <|
  -- `if((I2C_TimeCnt--) == 0) ;//return I2C_TimeOut();`
  rewind <|
  .spin (set .MASTER_TRANSMITTER_MODE_SELECTED) <|
  give (.sendData WriteAddr) <|
  await (set .MASTER_BYTE_TRANSMITTING) <|
  .load (fun s => s.byte NumByte) fun n =>
  give (.dmaInit .Stream6 WriteBuf n.toUInt32) <|
  give (.dmaCmd .Stream6 true) (.ret SUCCESS)

/-- `MS5611_Read`. -/
def ms5611Read (ReadBuf : ℕ) (SlaveAddr : UInt8) (NumByte : ℕ) : Prog :=
  .exec (fun _ s => { s with I2C_ReadPtr := NumByte }) <|
  give .generateSTART <|
  await (set .MASTER_MODE_SELECT) <|
  give (.send7bitAddress SlaveAddr .Receiver) <|
  await (set .MASTER_RECEIVER_MODE_SELECTED) <|
  startRecv ReadBuf NumByte <|
  await (done NumByte) (.ret SUCCESS)

/-- A call with the parameter `NumByte`, which lies at `addr` since its address is passed on:
    the status of the function called is dropped, and the byte waited for once more. -/
def withNumByte (addr : ℕ) (NumByte : UInt8) (call : ℕ → Prog) : Prog :=
  .exec (fun _ s => s.store addr NumByte) <|
  (call addr).bind fun _ =>
  await (done addr) (.ret SUCCESS)

/-- `I2C_DMA_ReadReg`. -/
def i2cDMAReadReg (SlaveAddr ReadAddr : UInt8) (ReadBuf : ℕ) (NumByte : UInt8) (addr : ℕ) : Prog :=
  withNumByte addr NumByte (i2cDMARead ReadBuf SlaveAddr ReadAddr)

/-- `I2C_DMA_WriteReg`. -/
def i2cDMAWriteReg (SlaveAddr WriteAddr : UInt8) (WriteBuf : ℕ) (NumByte : UInt8) (addr : ℕ) :
    Prog :=
  withNumByte addr NumByte (i2cDMAWrite WriteBuf SlaveAddr WriteAddr)

/-- `MS5611_ReadData`. -/
def ms5611ReadData (ReadBuf : ℕ) (SlaveAddr NumByte : UInt8) (addr : ℕ) : Prog :=
  withNumByte addr NumByte (ms5611Read ReadBuf SlaveAddr)

/-- `MS5611_WriteCom`. -/
def ms5611WriteCom (SlaveAddr WriteCom : UInt8) : Prog :=
  await (reset .BUSY) <|
  give .generateSTART <|
  await (set .MASTER_MODE_SELECT) <|
  rewind <|
  give (.send7bitAddress SlaveAddr .Transmitter) <|
  await (set .MASTER_TRANSMITTER_MODE_SELECTED) <|
  give (.sendData WriteCom) <|
  await (set .MASTER_BYTE_TRANSMITTED) <|
  give .generateSTOP (.ret SUCCESS)

/-- A call of the driver. -/
inductive Call where
  | dmaRead (ReadBuf : ℕ) (SlaveAddr ReadAddr : UInt8) (NumByte : ℕ)
  | dmaReadReg (SlaveAddr ReadAddr : UInt8) (ReadBuf : ℕ) (NumByte : UInt8) (addr : ℕ)
  | dmaWrite (WriteBuf : ℕ) (SlaveAddr WriteAddr : UInt8) (NumByte : ℕ)
  | dmaWriteReg (SlaveAddr WriteAddr : UInt8) (WriteBuf : ℕ) (NumByte : UInt8) (addr : ℕ)
  | ms5611Read (ReadBuf : ℕ) (SlaveAddr : UInt8) (NumByte : ℕ)
  | ms5611ReadData (ReadBuf : ℕ) (SlaveAddr NumByte : UInt8) (addr : ℕ)
  | ms5611WriteCom (SlaveAddr WriteCom : UInt8)

namespace Call

def code : Call → Prog
  | dmaRead ReadBuf SlaveAddr ReadAddr NumByte => i2cDMARead ReadBuf SlaveAddr ReadAddr NumByte
  | dmaReadReg SlaveAddr ReadAddr ReadBuf NumByte addr =>
    i2cDMAReadReg SlaveAddr ReadAddr ReadBuf NumByte addr
  | dmaWrite WriteBuf SlaveAddr WriteAddr NumByte =>
    i2cDMAWrite WriteBuf SlaveAddr WriteAddr NumByte
  | dmaWriteReg SlaveAddr WriteAddr WriteBuf NumByte addr =>
    i2cDMAWriteReg SlaveAddr WriteAddr WriteBuf NumByte addr
  | ms5611Read ReadBuf SlaveAddr NumByte => I2CDma.ms5611Read ReadBuf SlaveAddr NumByte
  | ms5611ReadData ReadBuf SlaveAddr NumByte addr =>
    I2CDma.ms5611ReadData ReadBuf SlaveAddr NumByte addr
  | ms5611WriteCom SlaveAddr WriteCom => I2CDma.ms5611WriteCom SlaveAddr WriteCom

/-- The waits of a call, at most. -/
def waits : Call → ℕ
  | dmaRead .. => 9
  | dmaReadReg .. => 10
  | dmaWrite .. => 4
  | dmaWriteReg .. => 5
  | ms5611Read .. => 3
  | ms5611ReadData .. => 4
  | ms5611WriteCom .. => 4

end Call

/-! ## Their waits -/

section Waits

variable {event : Moment → Mem → Bool} {next : Prog} {n : ℕ}

@[simp] theorem stranding_give {c : Command} : (give c next).Stranding n ↔ next.Stranding n := .rfl

@[simp] theorem stranding_rewind : (rewind next).Stranding n ↔ next.Stranding n := .rfl

@[simp] theorem stranding_await : (await event next).Stranding (n + 1) ↔ next.Stranding n := by
  rw [await, stranding_rewind, i2cTimeOut, Code.stranding_wait]

theorem stranding_read {ReadBuf NumByte : ℕ} {SlaveAddr ReadAddr : UInt8} :
    (i2cDMARead ReadBuf SlaveAddr ReadAddr NumByte).Stranding 9 := by
  simp only [i2cDMARead, startRecv, stranding_give, stranding_await, Code.stranding_exec,
    Code.stranding_load]
  intro n
  split
  case isTrue => simp
  case isFalse => simp

theorem stranding_write {WriteBuf NumByte : ℕ} {SlaveAddr WriteAddr : UInt8} :
    (i2cDMAWrite WriteBuf SlaveAddr WriteAddr NumByte).Stranding 4 := by
  simp [i2cDMAWrite]

theorem stranding_ms5611Read {ReadBuf NumByte : ℕ} {SlaveAddr : UInt8} :
    (ms5611Read ReadBuf SlaveAddr NumByte).Stranding 3 := by
  simp [ms5611Read, startRecv]

theorem stranding_ms5611WriteCom {SlaveAddr WriteCom : UInt8} :
    (ms5611WriteCom SlaveAddr WriteCom).Stranding 4 := by
  simp [ms5611WriteCom]

theorem stranding_withNumByte {addr : ℕ} {NumByte : UInt8} {call : ℕ → Prog}
    (h : (call addr).Stranding n) : (withNumByte addr NumByte call).Stranding (n + 1) :=
  Code.Stranding.bind h fun _ => stranding_await.mpr trivial

theorem stranding_code (c : Call) : c.code.Stranding c.waits := by
  cases c with
  | dmaRead => exact stranding_read
  | dmaReadReg => exact stranding_withNumByte stranding_read
  | dmaWrite => exact stranding_write
  | dmaWriteReg => exact stranding_withNumByte stranding_write
  | ms5611Read => exact stranding_ms5611Read
  | ms5611ReadData => exact stranding_withNumByte stranding_ms5611Read
  | ms5611WriteCom => exact stranding_ms5611WriteCom

end Waits

/-! ## Their counter -/

section Counter

variable {event : Moment → Mem → Bool} {next : Prog} {b : Bool}

theorem rewound_give {c : Command} (h : next.Rewound machine I2C_TIME false) :
    (give c next).Rewound machine I2C_TIME b := .inl h

theorem rewound_await (h : next.Rewound machine I2C_TIME false) :
    (await event next).Rewound machine I2C_TIME b := .inr ⟨fun _ _ => rfl, rfl, trivial, h⟩

theorem rewound_startRecv {ReadBuf NumByte : ℕ} (h : next.Rewound machine I2C_TIME false) :
    (startRecv ReadBuf NumByte next).Rewound machine I2C_TIME b :=
  fun _ => rewound_give <| rewound_give <| rewound_give h

theorem rewound_read {ReadBuf NumByte : ℕ} {SlaveAddr ReadAddr : UInt8} :
    (i2cDMARead ReadBuf SlaveAddr ReadAddr NumByte).Rewound machine I2C_TIME false := by
  have hlast : (await (done NumByte) (.ret SUCCESS)).Rewound machine I2C_TIME false :=
    rewound_await trivial
  unfold i2cDMARead
  refine .exec _ <| rewound_await <| rewound_give <| rewound_await <| rewound_give <|
    rewound_await <| rewound_give <| rewound_await <| rewound_give <| rewound_await <|
    rewound_give fun n => ?_
  dsimp only
  split
  case isTrue =>
    exact rewound_await <| rewound_give <| rewound_give <| rewound_give <| rewound_await <|
      .exec _ fun n => .exec _ <| rewound_await <| rewound_give hlast
  case isFalse => exact rewound_await <| rewound_startRecv hlast

theorem rewound_write {WriteBuf NumByte : ℕ} {SlaveAddr WriteAddr : UInt8} :
    (i2cDMAWrite WriteBuf SlaveAddr WriteAddr NumByte).Rewound machine I2C_TIME false := by
  unfold i2cDMAWrite
  refine .exec _ <| rewound_await <| rewound_give <| rewound_await <| .exec _ <| rewound_give <|
    .inr ⟨fun _ _ => rfl, rfl, ?_⟩
  exact rewound_give <| rewound_await fun _ => rewound_give <| rewound_give trivial

theorem rewound_ms5611Read {ReadBuf NumByte : ℕ} {SlaveAddr : UInt8} :
    (ms5611Read ReadBuf SlaveAddr NumByte).Rewound machine I2C_TIME false := by
  unfold ms5611Read
  exact .exec _ <| rewound_give <| rewound_await <| rewound_give <| rewound_await <|
    rewound_startRecv <| rewound_await trivial

theorem rewound_ms5611WriteCom {SlaveAddr WriteCom : UInt8} :
    (ms5611WriteCom SlaveAddr WriteCom).Rewound machine I2C_TIME false := by
  unfold ms5611WriteCom
  exact rewound_await <| rewound_give <| rewound_await <| .exec _ <| rewound_give <|
    rewound_await <| rewound_give <| rewound_await <| rewound_give trivial

theorem rewound_withNumByte {addr : ℕ} {NumByte : UInt8} {call : ℕ → Prog}
    (h : (call addr).Rewound machine I2C_TIME false) :
    (withNumByte addr NumByte call).Rewound machine I2C_TIME false :=
  .exec _ (h.bind fun _ => rewound_await trivial)

/-- Every wait starts from `I2C_TIME`. -/
theorem rewound_code (c : Call) : c.code.Rewound machine I2C_TIME false := by
  cases c with
  | dmaRead => exact rewound_read
  | dmaReadReg => exact rewound_withNumByte rewound_read
  | dmaWrite => exact rewound_write
  | dmaWriteReg => exact rewound_withNumByte rewound_write
  | ms5611Read => exact rewound_ms5611Read
  | ms5611ReadData => exact rewound_withNumByte rewound_ms5611Read
  | ms5611WriteCom => exact rewound_ms5611WriteCom

/-- No transfer to the bus is completed. -/
def Moment.Quiet (i : Moment) : Prop := ∀ a ∈ i.arrivals, ∀ BTF, a ≠ .send true BTF

theorem apply_quiet {a : Arrival} (ha : ∀ BTF, a ≠ .send true BTF) (s : Mem) :
    ∃ s', a.apply s = some s' ∧ s'.I2C_TimeCnt = s.I2C_TimeCnt := by
  cases a with
  | store p v => exact ⟨_, rfl, rfl⟩
  | recv TCIF0 => cases TCIF0 <;> exact ⟨_, rfl, rfl⟩
  | send TCIF6 BTF =>
    cases TCIF6 with
    | false => exact ⟨_, rfl, rfl⟩
    | true => exact absurd rfl (ha BTF)

theorem Moment.Quiet.undisturbed {i : Moment} (h : i.Quiet) : machine.Undisturbed i := by
  obtain ⟨arrivals, flag, data⟩ := i
  intro s
  change ∃ s', arrivals.foldlM Arrival.apply s = some s' ∧ s'.I2C_TimeCnt = s.I2C_TimeCnt
  induction arrivals generalizing s with
  | nil => exact ⟨s, rfl, rfl⟩
  | cons a arrivals ih =>
    obtain ⟨s₁, happly, hcnt₁⟩ := apply_quiet (h a List.mem_cons_self) s
    obtain ⟨s₂, hrest, hcnt₂⟩ := ih (fun a' ha' => h a' (List.mem_cons_of_mem _ ha')) s₁
    refine ⟨s₂, ?_, hcnt₂.trans hcnt₁⟩
    rw [List.foldlM_cons, happly]
    exact hrest

end Counter

/-! ## When they return -/

/-- A call returns promptly, with `SUCCESS` only if it has seen every event, exactly when in no
    step before its end a handler fails to come back, a wait fails its last poll, or a wait that
    is left on expiry finds the counter at zero. -/
theorem call_prompt_iff (c : Call) (s : Mem) (env : ℕ → Moment) :
    Prompt machine I2C_TIME.toNat c.waits SUCCESS c.code s env ↔
      ∀ k, InTime machine I2C_TIME.toNat (machine.call c.code s env k) (env k) :=
  prompt_iff (stranding_code c)

/-- While no transfer to the bus is completed, that is when no wait fails `I2C_TIME + 1` polls. -/
theorem call_prompt_quiet_iff (c : Call) (s : Mem) {env : ℕ → Moment} (h : ∀ k, (env k).Quiet) :
    Prompt machine I2C_TIME.toNat c.waits SUCCESS c.code s env ↔
      ∀ k, (machine.call c.code s env k).pc.polls ≤ I2C_TIME.toNat :=
  prompt_iff_of_undisturbed (stranding_code c) (rewound_code c) (fun _ _ => rfl)
    fun k => (h k).undisturbed

/-- The bus is free and the start condition seen, but no slave acknowledges its address. -/
def unacknowledged : Moment where
  arrivals := []
  flag e := e == .MASTER_MODE_SELECT
  data := 0

section Unacknowledged

variable (WriteBuf : ℕ) (SlaveAddr WriteAddr : UInt8) (NumByte : ℕ) (s : Mem)

/-- The call of `I2C_DMA_Write` comes to the wait for the acknowledged address. -/
theorem spins_write : ∃ next, (machine.call (i2cDMAWrite WriteBuf SlaveAddr WriteAddr NumByte) s
    (fun _ => unacknowledged) 9).pc.Spins (set .MASTER_TRANSMITTER_MODE_SELECTED) next :=
  ⟨_, rfl⟩

/-- It neither times out there nor returns. -/
theorem write_not_returns :
    ¬ Returns machine ⟨s, .run (i2cDMAWrite WriteBuf SlaveAddr WriteAddr NumByte), []⟩
      fun _ => unacknowledged := by
  intro h
  obtain ⟨next, hspins⟩ := spins_write WriteBuf SlaveAddr WriteAddr NumByte s
  exact not_returns_of_spins hspins (fun _ _ => rfl) (h.later 9)

end Unacknowledged

/-- A register of a sensor that is not there is written. -/
theorem call_prompt_fails : ¬ Prompt machine I2C_TIME.toNat (Call.dmaWrite 16 0xD0 0x6B 8).waits
    SUCCESS (Call.dmaWrite 16 0xD0 0x6B 8).code ⟨0, 0, I2C_TIME, fun _ => 1, []⟩
      fun _ => unacknowledged := by
  intro h
  obtain ⟨k, a, hret, -⟩ := h.returns
  exact write_not_returns 16 0xD0 0x6B 8 _ ⟨k, a, hret⟩

end I2CDma
