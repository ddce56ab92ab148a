-- SUMMARY: The threads of the driver between the card and the network stack, and the register they share.
import LynxFly.Base.Interleaving
import LynxFly.Wifi.Constants
import Mathlib.Data.List.Basic

/-!
# The threads of the driver

`wlan_rx_thread` (`wlan_main.c`) takes what the card interrupts for. It processes responses
(`wlan_process_rx_command`, `wlan_cmdresp.c`) while any number of threads are in
`WlanExecuteCommand` (`wlan_cmd.c`), and has `eth_device_ready` tell `eth_rx_thread_entry`
(`ethernetif.c`) of packets. What it still has to do stands in `HisRegCpy`, which the other
threads rewrite as well: there `|=` and `&=` are a load and a store, and anything may happen
in between. The card does what it likes, when it likes.
-/

open Interleaving

namespace Wlan.Threads

/-! ## Commands -/

/-- The header of a `HostCmd_DS_COMMAND`. -/
structure HostCmd where
  Command : UInt16
  Size : UInt16
  SeqNum : UInt16
  Result : UInt16
  deriving DecidableEq

/-- `r` has the sequence number of `c` and is of the response type of its command. -/
def Answers (r c : HostCmd) : Prop := r.SeqNum = c.SeqNum ∧ r.Command = c.Command ||| 0x8000

instance (r c : HostCmd) : Decidable (Answers r c) := inferInstanceAs (Decidable (_ ∧ _))

/-- What `wlan_process_rx_command` leaves in `CurCmdRetCode`. -/
def curCmdRetCode (resp : HostCmd) : ℤ :=
  if resp.Command &&& 0x8000 = 0 then WLAN_STATUS_FAILURE
  else if resp.Result ≠ HostCmd_RESULT_OK then WLAN_STATUS_FAILURE
  else resp.Result.toNat

/-! ## `HisRegCpy` -/

def HIS_TxDnLdRdy : BitVec 8 := 0x02

/-- The bits that `wlan_rx_thread` tests, in its order. -/
inductive HisBit where
  | CmdUpLdRdy
  | RxUpLdRdy
  | CardEvent
  deriving DecidableEq

namespace HisBit

def mask : HisBit → BitVec 8
  | CmdUpLdRdy => 0x10
  | RxUpLdRdy => 0x01
  | CardEvent => 0x08

def isSet (bit : HisBit) (reg : BitVec 8) : Bool := reg &&& bit.mask != 0

end HisBit

/-- An assignment of `wlan_rx_thread` to `HisRegCpy`. -/
inductive Assign where
  /-- `|= ireg` -/
  | or (ireg : BitVec 8)
  /-- `&= ~bit` -/
  | clear (bit : HisBit)
  deriving DecidableEq

def Assign.eval (reg : BitVec 8) : Assign → BitVec 8
  | or ireg => reg ||| ireg
  | clear bit => reg &&& ~~~bit.mask

/-! ## States -/

/-- Where `wlan_rx_thread` stands. -/
inductive RxPc where
  /-- In `rt_event_recv`, for the next interrupt. -/
  | eventRecv
  /-- In `sbi_get_int_status`, before the upload of data. -/
  | dataToHost (ireg : BitVec 8)
  /-- In `sbi_get_int_status`, before the upload of a response. -/
  | cmdToHost (ireg : BitVec 8)
  | load (a : Assign)
  | store (a : Assign) (reg : BitVec 8)
  /-- Before `if (card->HisRegCpy & bit)`. -/
  | test (bit : HisBit)
  /-- Before what is done for the bit. -/
  | process (bit : HisBit)
  /-- In `wlan_process_rx_command`, before `rt_event_send`. -/
  | eventSend
  /-- In `eth_device_ready`, before the test of `netif`. -/
  | ready
  /-- In `eth_device_ready`, before `rt_mb_send`. -/
  | mbSend
  deriving DecidableEq

/-- Where `wlan_rx_thread` is once it is through with a bit. -/
def HisBit.next : HisBit → RxPc
  | CmdUpLdRdy => .test .RxUpLdRdy
  | RxUpLdRdy => .test .CardEvent
  | CardEvent => .eventRecv

def Assign.next : Assign → RxPc
  | or _ => .test .CmdUpLdRdy
  | clear bit => .process bit

/-- Where `eth_rx_thread_entry` stands. -/
inductive EthPc where
  /-- In `rt_mb_recv`. -/
  | mbRecv
  /-- Before the next call of `eth_rx`. -/
  | drain
  deriving DecidableEq

/-- Where a thread stands in `WlanExecuteCommand`. -/
inductive Pc where
  | idle
  /-- Before the check of the command's size. -/
  | download (c : HostCmd)
  /-- `CurCmd` is set; before `sbi_host_to_card`. -/
  | hostToCard (c : HostCmd)
  /-- Before the load of `card->HisRegCpy &= ~HIS_TxDnLdRdy`. -/
  | load (c : HostCmd)
  | store (c : HostCmd) (reg : BitVec 8)
  /-- Before `rt_event_recv`. -/
  | eventRecv (c : HostCmd)
  /-- Suspended in `rt_event_recv`. -/
  | suspended (c : HostCmd)
  /-- It has the event; all that is left is to return. -/
  | received

/-- The command a thread is waiting for. -/
def Pc.awaited : Pc → Option HostCmd
  | hostToCard c | load c | store c _ | eventRecv c | suspended c => some c
  | _ => none

/-- What a run is judged by. -/
inductive Event where
  /-- `WlanExecuteCommand` is through, after these responses had been processed since the
      command became the current one. -/
  | returned (c : HostCmd) (processed : List HostCmd)
  /-- A response was applied, while the threads waited for these commands. -/
  | applied (r : HostCmd) (awaited : ℕ → Option HostCmd)

def RT_LWIP_ETHTHREAD_MBOX_SIZE : ℕ := 4

/-- What `WlanCard` knows of the command under way. -/
structure CmdCtrl where
  CurCmd : Option HostCmd
  CurCmdRetCode : ℤ
  /-- `CmdWaitQWoken` is set in `cmdwaitevent`. -/
  cmdwaitevent : Bool

structure State extends CmdCtrl where
  HisRegCpy : BitVec 8
  RxQueueCount : ℕ
  CmdResBuf : HostCmd
  /-- The threads suspended on `cmdwaitevent`, first come first. -/
  suspended : List ℕ
  /-- `dev->netif` is set. -/
  netif : Bool
  /-- Notices in `eth_rx_thread_mb`. -/
  mailbox : ℕ
  rx : RxPc
  eth : EthPc
  pc : ℕ → Pc
  /-- Responses that the card has ready. -/
  responses : List HostCmd
  -- a record of what came by
  processed : ℕ → List HostCmd
  log : List Event

/-- `WlanInitPhase1` has cleared `cardinfo` and started `wlan_rx_thread`, and no more. -/
def start : State where
  HisRegCpy := 0
  RxQueueCount := 0
  CurCmd := none
  CurCmdRetCode := 0
  CmdResBuf := ⟨0, 0, 0, 0⟩
  cmdwaitevent := false
  suspended := []
  netif := false
  mailbox := 0
  rx := .eventRecv
  eth := .mbRecv
  pc _ := .idle
  responses := []
  processed _ := []
  log := []

/-! ## Steps -/

inductive Act where
  /-- The card interrupts, and `sbi_get_int_status` reads this status. -/
  | interrupt (ireg : BitVec 8)
  /-- The upload of a packet succeeds. `queued`: `ProcessRxedPacket` put it in. -/
  | dataToHost (queued : Bool)
  | dataToHostFailed
  /-- The upload of a response succeeds. -/
  | cmdToHost
  /-- The upload of a response fails, and leaves this in the buffer. -/
  | cmdToHostFailed (left : HostCmd)
  /-- `wlan_rx_thread` goes on. -/
  | rx
  /-- `eth_rx_thread_entry` takes a notice. -/
  | mbRecv
  /-- A pass of `rt_wlan_dev_rx`. -/
  | rtWlanDevRx
  /-- The end of `rt_wlan_dev_tx`, with interrupts disabled. -/
  | rtWlanDevTx
  /-- `eth_device_init` succeeds. -/
  | ethDeviceInit
  /-- The card makes a response ready. -/
  | respond (r : HostCmd)
  /-- Thread `t` calls `WlanExecuteCommand`. -/
  | executeCommand (t : ℕ) (c : HostCmd)
  /-- Thread `t` goes on in `DownloadCommandToStation`. -/
  | run (t : ℕ)

namespace State

def setPc (s : State) (t : ℕ) (pc : Pc) : State := { s with pc := Function.update s.pc t pc }

/-- `rt_event_recv` gives the event to thread `t`. -/
def receive (s : State) (t : ℕ) (c : HostCmd) : State :=
  { s with
    cmdwaitevent := false
    log := s.log ++ [Event.returned c (s.processed t)] }.setPc t .received

/-- `wlan_process_rx_command`, up to the event. -/
def wlanProcessRxCommand (s : State) : State :=
  match s.CurCmd with
  | none => { s with rx := HisBit.CmdUpLdRdy.next }
  | some _ =>
    -- neither the sequence number nor the command is compared
    { s with
      CurCmdRetCode := curCmdRetCode s.CmdResBuf
      processed := fun t => s.processed t ++ [s.CmdResBuf]
      log := s.log ++ [Event.applied s.CmdResBuf fun t => (s.pc t).awaited]
      rx := .eventSend }

/-- `rt_event_send` to `cmdwaitevent`. -/
def eventSend (s : State) : Option State :=
  match s.suspended with
  | [] => some { s with cmdwaitevent := true, rx := HisBit.CmdUpLdRdy.next }
  | t :: ts =>
    match s.pc t with
    -- the first thread is resumed and takes the event
    | .suspended c => some ({ s with suspended := ts, rx := HisBit.CmdUpLdRdy.next }.receive t c)
    | _ => none

/-- `eth_device_ready`. -/
def ethDeviceReady (s : State) : State :=
  -- without an interface the notice is not posted, and nobody is told
  { s with rx := if s.netif then .mbSend else HisBit.RxUpLdRdy.next }

def mbSend (s : State) : State :=
  { s with
    mailbox := if s.mailbox < RT_LWIP_ETHTHREAD_MBOX_SIZE then s.mailbox + 1 else s.mailbox
    rx := HisBit.RxUpLdRdy.next }

/-- `wlan_rx_thread`, where it does not wait for the card. -/
def rxRun (s : State) : Option State :=
  match s.rx with
  | .eventRecv => none
  | .dataToHost ireg =>
    if HisBit.RxUpLdRdy.isSet ireg then none else some { s with rx := .cmdToHost ireg }
  | .cmdToHost ireg =>
    if HisBit.CmdUpLdRdy.isSet ireg then none else some { s with rx := .load (.or ireg) }
  | .load a => some { s with rx := .store a (a.eval s.HisRegCpy) }
  | .store a reg => some { s with HisRegCpy := reg, rx := a.next }
  | .test bit =>
    some { s with rx := if bit.isSet s.HisRegCpy then .load (.clear bit) else bit.next }
  | .process .CmdUpLdRdy => some s.wlanProcessRxCommand
  | .process .RxUpLdRdy =>
    some { s with rx := if s.RxQueueCount = 1 then .ready else HisBit.RxUpLdRdy.next }
  -- `sbi_read_event_cause` and `wlan_process_event`
  | .process .CardEvent => some { s with rx := HisBit.CardEvent.next }
  | .eventSend => s.eventSend
  | .ready => some s.ethDeviceReady
  | .mbSend => some s.mbSend

/-- `DownloadCommandToStation` makes its command the current one. -/
def download (s : State) (t : ℕ) (c : HostCmd) : State :=
  { s with
    CurCmd := some c
    processed := Function.update s.processed t [] }.setPc t (.hostToCard c)

/-- Thread `t` in `WlanExecuteCommand`. -/
def run (s : State) (t : ℕ) : Option State :=
  match s.pc t with
  | .idle => none
  | .download c =>
    -- `WlanExecuteCommand` does not look at the failure
    if c.Size = 0 then some ({ s with log := s.log ++ [Event.returned c []] }.setPc t .idle)
    else some (s.download t c)
  -- whatever the status, the wait is entered
  | .hostToCard c => some (s.setPc t (.load c))
  | .load c => some (s.setPc t (.store c (s.HisRegCpy &&& ~~~HIS_TxDnLdRdy)))
  | .store c reg => some ({ s with HisRegCpy := reg }.setPc t (.eventRecv c))
  | .eventRecv c =>
    if s.cmdwaitevent then some (s.receive t c)
    else some ({ s with suspended := s.suspended ++ [t] }.setPc t (.suspended c))
  | .suspended _ => none
  | .received => some (s.setPc t .idle)

end State

def step (s : State) : Act → Option State
  | .interrupt ireg =>
    match s.rx with
    | .eventRecv => some { s with rx := .dataToHost ireg }
    | _ => none
  | .dataToHost queued =>
    match s.rx with
    | .dataToHost ireg =>
      if HisBit.RxUpLdRdy.isSet ireg then
        some { s with
          RxQueueCount := if queued then s.RxQueueCount + 1 else s.RxQueueCount
          rx := .cmdToHost ireg }
      else none
    | _ => none
  | .dataToHostFailed =>
    match s.rx with
    -- `goto done`: a response is not uploaded either
    | .dataToHost ireg =>
      if HisBit.RxUpLdRdy.isSet ireg then some { s with rx := .load (.or ireg) } else none
    | _ => none
  | .cmdToHost =>
    match s.rx, s.responses with
    | .cmdToHost ireg, r :: responses =>
      if HisBit.CmdUpLdRdy.isSet ireg then
        some { s with CmdResBuf := r, responses, rx := .load (.or ireg) }
      else none
    | _, _ => none
  | .cmdToHostFailed left =>
    match s.rx with
    | .cmdToHost ireg =>
      if HisBit.CmdUpLdRdy.isSet ireg then
        some { s with CmdResBuf := left, responses := s.responses.tail, rx := .load (.or ireg) }
      else none
    | _ => none
  | .rx => s.rxRun
  | .mbRecv =>
    match s.eth with
    | .mbRecv =>
      if 0 < s.mailbox then some { s with mailbox := s.mailbox - 1, eth := .drain } else none
    | .drain => none
  | .rtWlanDevRx =>
    match s.eth with
    | .drain =>
      if 0 < s.RxQueueCount then some { s with RxQueueCount := s.RxQueueCount - 1 }
      else some { s with eth := .mbRecv }
    | .mbRecv => none
  | .rtWlanDevTx => some { s with HisRegCpy := s.HisRegCpy &&& ~~~HIS_TxDnLdRdy }
  | .ethDeviceInit => some { s with netif := true }
  | .respond r => some { s with responses := s.responses ++ [r] }
  | .executeCommand t c =>
    match s.pc t with
    | .idle => some (s.setPc t (.download c))
    | _ => none
  | .run t => s.run t

/-! ## Who changes what -/

/-- What the notice of received packets goes by. -/
def State.notice (s : State) : ℕ × Bool × ℕ × RxPc × EthPc :=
  (s.RxQueueCount, s.netif, s.mailbox, s.rx, s.eth)

/-- What the pairing of commands and responses goes by. -/
def State.commands (s : State) : (ℕ → Pc) × (ℕ → List HostCmd) × List Event × List ℕ × Bool :=
  (s.pc, s.processed, s.log, s.suspended, s.cmdwaitevent)

/-- The steps of `wlan_rx_thread` on its own, and those of the threads with commands. -/
def Act.OfThreads : Act → Prop
  | .rx | .executeCommand _ _ | .run _ => True
  | _ => False

section Frames

variable {s s' : State} {a : Act} {t : ℕ}

/-- What a thread can do in `DownloadCommandToStation`. -/
inductive Ran (s : State) (t : ℕ) : State → Prop
  | unsized {c : HostCmd} (hpc : s.pc t = .download c) (hsize : c.Size = 0) :
      Ran s t ({ s with log := s.log ++ [Event.returned c []] }.setPc t .idle)
  | downloaded {c : HostCmd} (hpc : s.pc t = .download c) (hsize : c.Size ≠ 0) :
      Ran s t (s.download t c)
  /-- It goes on, with its register stored or nothing. -/
  | moved {pc : Pc} {reg : BitVec 8} (hpc : ∀ c, s.pc t ≠ .suspended c)
      (hawaited : pc.awaited = (s.pc t).awaited)
      (hreg : reg = s.HisRegCpy ∨ ∃ c, s.pc t = .store c reg) :
      Ran s t ({ s with HisRegCpy := reg }.setPc t pc)
  | received {c : HostCmd} (hpc : s.pc t = .eventRecv c) (hevent : s.cmdwaitevent = true) :
      Ran s t (s.receive t c)
  | suspended {c : HostCmd} (hpc : s.pc t = .eventRecv c) (hevent : ¬ s.cmdwaitevent = true) :
      Ran s t ({ s with suspended := s.suspended ++ [t] }.setPc t (.suspended c))

theorem State.run_cases (h : s.run t = some s') : Ran s t s' := by
  unfold State.run at h
  cases hpc : s.pc t with
  | idle | suspended c =>
    rw [hpc] at h
    cases h
  | download c =>
    simp only [hpc] at h
    split at h
    case isTrue hsize =>
      cases h
      exact .unsized hpc hsize
    case isFalse hsize =>
      cases h
      exact .downloaded hpc hsize
  | eventRecv c =>
    simp only [hpc] at h
    split at h
    case isTrue hevent =>
      cases h
      exact .received hpc hevent
    case isFalse hevent =>
      cases h
      exact .suspended hpc hevent
  | hostToCard c | load c | received =>
    simp only [hpc] at h
    cases h
    exact .moved (by simp [hpc]) (by rw [hpc]; rfl) (.inl rfl)
  | store c reg =>
    simp only [hpc] at h
    cases h
    exact .moved (by simp [hpc]) (by rw [hpc]; rfl) (.inr ⟨c, hpc⟩)

theorem State.run_notice (h : s.run t = some s') : s'.notice = s.notice := by
  cases State.run_cases h with
  | unsized | downloaded | moved | received | suspended => rfl

theorem HisBit.next_ne_eventSend (bit : HisBit) : bit.next ≠ .eventSend := by
  cases bit <;> simp [HisBit.next]

theorem Assign.next_ne_eventSend (a : Assign) : a.next ≠ .eventSend := by
  cases a <;> simp [Assign.next]

/-- But for a response, `wlan_rx_thread` does nothing to those who wait for one. -/
theorem State.rxRun_commands (h : s.rxRun = some s') (hprocess : s.rx ≠ .process .CmdUpLdRdy)
    (hsend : s.rx ≠ .eventSend) : s'.commands = s.commands ∧ s'.rx ≠ .eventSend := by
  unfold State.rxRun at h
  cases hrx : s.rx with
  | eventRecv =>
    rw [hrx] at h
    cases h
  | dataToHost ireg | cmdToHost ireg =>
    simp only [hrx] at h
    split at h
    case isTrue => cases h
    case isFalse =>
      cases h
      exact ⟨rfl, by simp⟩
  | load a =>
    simp only [hrx] at h
    cases h
    exact ⟨rfl, by simp⟩
  | store a reg =>
    simp only [hrx] at h
    cases h
    exact ⟨rfl, a.next_ne_eventSend⟩
  | test bit =>
    simp only [hrx] at h
    cases h
    refine ⟨rfl, ?_⟩
    by_cases hset : bit.isSet s.HisRegCpy = true
    · simp [if_pos hset]
    · simp only [if_neg hset]
      exact bit.next_ne_eventSend
  | process bit =>
    cases bit with
    | CmdUpLdRdy => exact absurd hrx hprocess
    | RxUpLdRdy =>
      simp only [hrx] at h
      cases h
      refine ⟨rfl, ?_⟩
      by_cases hone : s.RxQueueCount = 1
      · simp [if_pos hone]
      · simp only [if_neg hone]
        exact HisBit.next_ne_eventSend _
    | CardEvent =>
      simp only [hrx] at h
      cases h
      exact ⟨rfl, HisBit.CardEvent.next_ne_eventSend⟩
  | eventSend => exact absurd hrx hsend
  | ready =>
    simp only [hrx] at h
    cases h
    refine ⟨rfl, ?_⟩
    by_cases hnetif : s.netif = true
    · simp [State.ethDeviceReady, if_pos hnetif]
    · simp only [State.ethDeviceReady, if_neg hnetif]
      exact HisBit.next_ne_eventSend _
  | mbSend =>
    simp only [hrx] at h
    cases h
    exact ⟨rfl, HisBit.RxUpLdRdy.next_ne_eventSend⟩

/-- Nor do the card and the network stack. -/
theorem step_commands (h : step s a = some s') (ha : ¬ a.OfThreads) :
    s'.commands = s.commands ∧ (s'.rx = .eventSend → s.rx = .eventSend) := by
  cases a with
  | rx | executeCommand t c | run t => exact absurd trivial ha
  | interrupt ireg =>
    simp only [step] at h
    split at h
    case h_1 =>
      cases h
      exact ⟨rfl, fun hrx => by cases hrx⟩
    case h_2 => cases h
  | dataToHost queued | dataToHostFailed | cmdToHost | cmdToHostFailed left =>
    simp only [step] at h
    split at h
    case h_1 =>
      split at h
      case isTrue =>
        cases h
        exact ⟨rfl, fun hrx => by cases hrx⟩
      case isFalse => cases h
    case h_2 => cases h
  | mbRecv =>
    simp only [step] at h
    split at h
    case h_1 =>
      split at h
      case isTrue =>
        cases h
        exact ⟨rfl, id⟩
      case isFalse => cases h
    case h_2 => cases h
  | rtWlanDevRx =>
    simp only [step] at h
    split at h
    case h_1 =>
      split at h
      case isTrue | isFalse =>
        cases h
        exact ⟨rfl, id⟩
    case h_2 => cases h
  | rtWlanDevTx | ethDeviceInit | respond r =>
    cases h
    exact ⟨rfl, id⟩

end Frames

end Wlan.Threads
