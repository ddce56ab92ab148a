-- SUMMARY: The receive notice: when every queued packet is covered by a notice, or by a thread that drains the queue.
import LynxFly.Wifi.Threads

/-!
# The notice of received packets

`wlan_rx_thread` queues a packet in `sbi_get_int_status` and then, if `HIS_RxUpLdRdy` is still
in `HisRegCpy` and the packet is the only one, has `eth_device_ready` post a notice.
`eth_rx_thread_entry` takes a notice and drains the queue. The interface is registered by
`rt_wlan_init` after the card is up; the receiving thread runs from its first phase on.
-/

open Interleaving Wlan.Threads

namespace RxNotice

/-- Packets are queued, with no notice of them, and nobody drains the queue. -/
def Uncovered (s : State) : Prop := 0 < s.RxQueueCount ∧ s.mailbox = 0 ∧ s.eth = .mbRecv

/-- Packets are queued, and nothing but another interrupt can move the threads. -/
def Stuck (s : State) : Prop := Uncovered s ∧ s.rx = .eventRecv

/-- The interface is there when `eth_device_ready` asks for it, and `HIS_RxUpLdRdy` is still
    there when it is tested for an uncovered packet. -/
def Benign (s : State) : Act → Prop
  | .rx =>
    (s.rx = .ready → s.netif = true) ∧
      (s.rx = .test .RxUpLdRdy → Uncovered s → HisBit.RxUpLdRdy.isSet s.HisRegCpy = true)
  | _ => True

/-! ## The invariant -/

/-- How far `wlan_rx_thread` is with a notice. -/
inductive Phase where
  /-- No packet has been put in yet. -/
  | before
  /-- `RxQueueCount` is still to be tested. -/
  | early
  | posting
  | late
  deriving DecidableEq

def phase : RxPc → Phase
  | .eventRecv | .dataToHost _ => .before
  | .cmdToHost _ | .load (.or _) | .store (.or _) _ | .eventSend => .early
  | .load (.clear bit) | .store (.clear bit) _ | .test bit | .process bit =>
    if bit = .CardEvent then .late else .early
  | .ready | .mbSend => .posting

structure Inv (s : State) : Prop where
  /-- Queued packets have a notice, or someone who drains them, or will get one. -/
  covered : Uncovered s → phase s.rx = .early ∧ s.RxQueueCount = 1 ∨ phase s.rx = .posting
  /-- Before the interface is there no notice is posted. -/
  unregistered : s.netif = false →
    s.mailbox = 0 ∧ s.eth = .mbRecv ∧ (s.rx = .ready → 0 < s.RxQueueCount) ∧ s.rx ≠ .mbSend

/-- No notice will come any more for what is queued. -/
structure Lost (s : State) : Prop where
  uncovered : Uncovered s
  late : phase s.rx = .late

theorem Inv.not_stuck {s : State} (h : Inv s) : ¬ Stuck s := by
  rintro ⟨huncovered, hrx⟩
  rcases h.covered huncovered with ⟨hphase, -⟩ | hphase
  · rw [hrx] at hphase
    cases hphase
  · rw [hrx] at hphase
    cases hphase

theorem inv_start : Inv start where
  covered h := absurd h.1 (Nat.lt_irrefl 0)
  unregistered _ := ⟨rfl, rfl, (fun hrx => by cases hrx), fun hrx => by cases hrx⟩

section Steps

variable {s s' : State} {a : Act} {rx : RxPc}

theorem posting_of_ready (h : rx = .ready ∨ rx = .mbSend) : phase rx = .posting := by
  rcases h with rfl | rfl
  · rfl
  · rfl

/-- Where nothing is uncovered, `wlan_rx_thread` may go anywhere but to post. -/
theorem Inv.settle (h : Inv s) (hcovered : ¬ Uncovered s')
    (hnetif : s'.netif = s.netif) (hmailbox : s'.mailbox = s.mailbox) (heth : s'.eth = s.eth)
    (hphase : phase s'.rx ≠ .posting) : Inv s' where
  covered huncovered := absurd huncovered hcovered
  unregistered hno := by
    obtain ⟨hempty, hrecv, -⟩ := h.unregistered (hnetif ▸ hno)
    exact ⟨hmailbox.trans hempty, heth.trans hrecv,
      fun hrx => absurd (posting_of_ready (.inl hrx)) hphase,
      fun hrx => absurd (posting_of_ready (.inr hrx)) hphase⟩

/-- A step within a phase. -/
theorem Inv.stay (h : Inv s) (hcount : s'.RxQueueCount = s.RxQueueCount)
    (hnetif : s'.netif = s.netif) (hmailbox : s'.mailbox = s.mailbox) (heth : s'.eth = s.eth)
    (hphase : phase s'.rx = phase s.rx) (hposting : phase s.rx ≠ .posting) : Inv s' := by
  by_cases huncovered : Uncovered s'
  · have hwas : Uncovered s := ⟨hcount ▸ huncovered.1, hmailbox ▸ huncovered.2.1,
      heth ▸ huncovered.2.2⟩
    refine ⟨fun _ => ?_, fun hno => ?_⟩
    · rw [hphase, hcount]
      exact h.covered hwas
    · obtain ⟨hempty, hrecv, -⟩ := h.unregistered (hnetif ▸ hno)
      exact ⟨hmailbox.trans hempty, heth.trans hrecv,
        fun hrx => absurd (hphase.symm.trans (posting_of_ready (.inl hrx))) hposting,
        fun hrx => absurd (hphase.symm.trans (posting_of_ready (.inr hrx))) hposting⟩
  · exact h.settle huncovered hnetif hmailbox heth (hphase ▸ hposting)

theorem Inv.congr (h : Inv s) (hnotice : s'.notice = s.notice) : Inv s' := by
  simp only [State.notice, Prod.mk.injEq] at hnotice
  obtain ⟨hcount, hnetif, hmailbox, hrx, heth⟩ := hnotice
  refine ⟨fun ⟨hpos, hempty, hrecv⟩ => ?_, fun hno => ?_⟩
  · rw [hrx, hcount]
    exact h.covered ⟨hcount ▸ hpos, hmailbox ▸ hempty, heth ▸ hrecv⟩
  · rw [hmailbox, heth, hrx, hcount]
    exact h.unregistered (hnetif ▸ hno)

/-- Before it has put a packet in, and after it has tested the count, `wlan_rx_thread` leaves
    nothing uncovered. -/
theorem Inv.not_uncovered (h : Inv s) (hphase : phase s.rx = .before ∨ phase s.rx = .late) :
    ¬ Uncovered s := by
  intro huncovered
  rcases h.covered huncovered with ⟨hearly, -⟩ | hposting
  · rcases hphase with hphase | hphase
    · rw [hphase] at hearly
      cases hearly
    · rw [hphase] at hearly
      cases hearly
  · rcases hphase with hphase | hphase
    · rw [hphase] at hposting
      cases hposting
    · rw [hphase] at hposting
      cases hposting

/-- Where nobody else is about, the packet just put in is the only one. -/
theorem Inv.dataToHost (h : Inv s) {ireg : BitVec 8} (hrx : s.rx = .dataToHost ireg)
    (queued : Bool) :
    Inv { s with
      RxQueueCount := if queued then s.RxQueueCount + 1 else s.RxQueueCount
      rx := .cmdToHost ireg } where
  covered huncovered := by
    have hzero : s.RxQueueCount = 0 := Nat.eq_zero_of_not_pos fun hpos =>
      h.not_uncovered (.inl (by rw [hrx]; rfl)) ⟨hpos, huncovered.2⟩
    have hpos := huncovered.1
    refine .inl ⟨rfl, ?_⟩
    simp only [hzero] at hpos ⊢
    cases queued with
    | true => rfl
    | false => cases hpos
  unregistered hno := by
    obtain ⟨hempty, hrecv, -⟩ := h.unregistered hno
    exact ⟨hempty, hrecv, (fun hready => by cases hready), fun hsend => by cases hsend⟩

theorem Inv.one (h : Inv s) (hcount : s.RxQueueCount = 1) : Inv { s with rx := .ready } where
  covered _ := .inr rfl
  unregistered hno := by
    obtain ⟨hempty, hrecv, -⟩ := h.unregistered hno
    exact ⟨hempty, hrecv, fun _ => hcount ▸ Nat.one_pos, fun hsend => by cases hsend⟩

theorem Inv.registered (hnetif : s.netif = true) : Inv { s with rx := .mbSend } where
  covered _ := .inr rfl
  unregistered hno := by
    have hfalse : s.netif = false := hno
    rw [hnetif] at hfalse
    cases hfalse

theorem Inv.mbSend (h : Inv s) (hrx : s.rx = .mbSend) : Inv s.mbSend where
  covered huncovered := by
    -- a full mailbox has notices too
    have hempty : (if s.mailbox < RT_LWIP_ETHTHREAD_MBOX_SIZE then s.mailbox + 1
      else s.mailbox) = 0 := huncovered.2.1
    split at hempty
    case isTrue => cases hempty
    case isFalse hfull =>
      rw [hempty] at hfull
      exact absurd (by decide) hfull
  unregistered hno := absurd hrx (h.unregistered hno).2.2.2

theorem Inv.mbRecv (h : Inv s) (hmailbox : 0 < s.mailbox) :
    Inv { s with mailbox := s.mailbox - 1, eth := .drain } where
  covered huncovered := by cases huncovered.2.2
  unregistered hno := absurd hmailbox ((h.unregistered hno).1 ▸ Nat.lt_irrefl 0)

/-- The thread that drains the queue has been told of it, so there is an interface. -/
theorem Inv.netif_of_drain (h : Inv s) (heth : s.eth = .drain) : s.netif ≠ false := by
  intro hno
  have hrecv := (h.unregistered hno).2.1
  rw [heth] at hrecv
  cases hrecv

theorem rxRun_keep (h : Inv s) (hok : Benign s .rx) (hs : s.rxRun = some s') : Inv s' := by
  unfold State.rxRun at hs
  cases hrx : s.rx with
  | eventRecv =>
    rw [hrx] at hs
    cases hs
  | dataToHost ireg =>
    simp only [hrx] at hs
    split at hs
    case isTrue => cases hs
    case isFalse =>
      cases hs
      exact h.settle (h.not_uncovered (.inl (by rw [hrx]; rfl))) rfl rfl rfl (by simp [phase])
  | cmdToHost ireg =>
    simp only [hrx] at hs
    split at hs
    case isTrue => cases hs
    case isFalse =>
      cases hs
      exact h.stay rfl rfl rfl rfl (by rw [hrx]; rfl) (by simp [hrx, phase])
  | load a =>
    simp only [hrx] at hs
    cases hs
    cases a with
    | or ireg => exact h.stay rfl rfl rfl rfl (by rw [hrx]; rfl) (by simp [hrx, phase])
    | clear bit =>
      exact h.stay rfl rfl rfl rfl (by rw [hrx]; rfl) (by cases bit <;> simp [hrx, phase])
  | store a reg =>
    simp only [hrx] at hs
    cases hs
    cases a with
    | or ireg => exact h.stay rfl rfl rfl rfl (by rw [hrx]; rfl) (by simp [hrx, phase])
    | clear bit =>
      exact h.stay rfl rfl rfl rfl (by rw [hrx]; rfl) (by cases bit <;> simp [hrx, phase])
  | test bit =>
    simp only [hrx] at hs
    cases hs
    by_cases hset : bit.isSet s.HisRegCpy = true
    · simp only [if_pos hset]
      exact h.stay rfl rfl rfl rfl (by rw [hrx]; rfl) (by cases bit <;> simp [hrx, phase])
    · simp only [if_neg hset]
      cases bit with
      | CmdUpLdRdy => exact h.stay rfl rfl rfl rfl (by rw [hrx]; rfl) (by simp [hrx, phase])
      | RxUpLdRdy =>
        have hcovered : ¬ Uncovered s := fun huncovered => hset (hok.2 hrx huncovered)
        exact h.settle hcovered rfl rfl rfl (by simp [HisBit.next, phase])
      | CardEvent =>
        have hcovered := h.not_uncovered (.inr (by rw [hrx]; rfl))
        exact h.settle hcovered rfl rfl rfl (by simp [HisBit.next, phase])
  | process bit =>
    cases bit with
    | CmdUpLdRdy =>
      simp only [hrx, State.wlanProcessRxCommand] at hs
      cases hcur : s.CurCmd with
      | none =>
        simp only [hcur] at hs
        cases hs
        exact h.stay rfl rfl rfl rfl (by rw [hrx]; rfl) (by simp [hrx, phase])
      | some c =>
        simp only [hcur] at hs
        cases hs
        exact h.stay rfl rfl rfl rfl (by rw [hrx]; rfl) (by simp [hrx, phase])
    | RxUpLdRdy =>
      simp only [hrx] at hs
      cases hs
      by_cases hone : s.RxQueueCount = 1
      · simp only [if_pos hone]
        exact h.one hone
      · simp only [if_neg hone]
        refine h.settle (fun huncovered => ?_) rfl rfl rfl (by simp [HisBit.next, phase])
        rcases h.covered huncovered with ⟨-, hcount⟩ | hposting
        · exact hone hcount
        · simp [hrx, phase] at hposting
    | CardEvent =>
      simp only [hrx] at hs
      cases hs
      have hcovered := h.not_uncovered (.inr (by rw [hrx]; rfl))
      exact h.settle hcovered rfl rfl rfl (by simp [HisBit.next, phase])
  | eventSend =>
    simp only [hrx, State.eventSend] at hs
    cases hsuspended : s.suspended with
    | nil =>
      simp only [hsuspended] at hs
      cases hs
      exact h.stay rfl rfl rfl rfl (by rw [hrx]; rfl) (by simp [hrx, phase])
    | cons t ts =>
      simp only [hsuspended] at hs
      split at hs
      · cases hs
        exact h.stay rfl rfl rfl rfl (by rw [hrx]; rfl) (by simp [hrx, phase])
      · cases hs
  | ready =>
    have hnetif : s.netif = true := hok.1 hrx
    simp only [hrx, State.ethDeviceReady, if_pos hnetif] at hs
    cases hs
    exact Inv.registered hnetif
  | mbSend =>
    simp only [hrx] at hs
    cases hs
    exact h.mbSend hrx

theorem step_keep (h : Inv s) (hok : Benign s a) (hs : step s a = some s') : Inv s' := by
  cases a with
  | rx => exact rxRun_keep h hok hs
  | run t => exact h.congr (State.run_notice hs)
  | interrupt ireg =>
    simp only [step] at hs
    split at hs
    case h_1 hrx =>
      cases hs
      exact h.stay rfl rfl rfl rfl (by rw [hrx]; rfl) (by simp [hrx, phase])
    case h_2 => cases hs
  | dataToHost queued =>
    simp only [step] at hs
    split at hs
    case h_1 ireg hrx =>
      split at hs
      case isTrue =>
        cases hs
        exact h.dataToHost hrx queued
      case isFalse => cases hs
    case h_2 => cases hs
  | dataToHostFailed =>
    simp only [step] at hs
    split at hs
    case h_1 ireg hrx =>
      split at hs
      case isTrue =>
        cases hs
        exact h.settle (h.not_uncovered (.inl (by rw [hrx]; rfl))) rfl rfl rfl (by simp [phase])
      case isFalse => cases hs
    case h_2 => cases hs
  | cmdToHost =>
    simp only [step] at hs
    split at hs
    case h_1 ireg r responses hrx hresponses =>
      split at hs
      case isTrue =>
        cases hs
        exact h.stay rfl rfl rfl rfl (by rw [hrx]; rfl) (by simp [hrx, phase])
      case isFalse => cases hs
    case h_2 => cases hs
  | cmdToHostFailed left =>
    simp only [step] at hs
    split at hs
    case h_1 ireg hrx =>
      split at hs
      case isTrue =>
        cases hs
        exact h.stay rfl rfl rfl rfl (by rw [hrx]; rfl) (by simp [hrx, phase])
      case isFalse => cases hs
    case h_2 => cases hs
  | mbRecv =>
    simp only [step] at hs
    split at hs
    case h_1 heth =>
      split at hs
      case isTrue hmailbox =>
        cases hs
        exact h.mbRecv hmailbox
      case isFalse => cases hs
    case h_2 => cases hs
  | rtWlanDevRx =>
    simp only [step] at hs
    split at hs
    case h_1 heth =>
      have hnetif := h.netif_of_drain heth
      split at hs
      case isTrue hcount =>
        cases hs
        refine ⟨fun huncovered => ?_, fun hno => absurd hno hnetif⟩
        have hrecv : s.eth = .mbRecv := huncovered.2.2
        rw [heth] at hrecv
        cases hrecv
      case isFalse hcount =>
        cases hs
        exact ⟨fun huncovered => absurd huncovered.1 hcount, fun hno => absurd hno hnetif⟩
    case h_2 => cases hs
  | ethDeviceInit =>
    cases hs
    exact ⟨h.covered, fun hno => by cases hno⟩
  | executeCommand t c =>
    simp only [step] at hs
    split at hs
    case h_1 =>
      cases hs
      exact h.congr rfl
    case h_2 => cases hs
  | rtWlanDevTx | respond r =>
    cases hs
    exact h.congr rfl

/-- A notice dropped for want of an interface, or of the bit, leaves its packet behind. -/
theorem step_break (h : Inv s) (hbad : ¬ Benign s a) (hs : step s a = some s') : Lost s' := by
  cases a with
  | rx =>
    simp only [step, State.rxRun] at hs
    rcases not_and_or.mp hbad with hready | htest
    · obtain ⟨hrx, hnetif⟩ := Classical.not_imp.mp hready
      have hno : s.netif = false := Bool.eq_false_iff.mpr hnetif
      obtain ⟨hmailbox, heth, hcount, -⟩ := h.unregistered hno
      simp only [hrx, State.ethDeviceReady, hno] at hs
      cases hs
      exact ⟨⟨hcount hrx, hmailbox, heth⟩, rfl⟩
    · obtain ⟨hrx, htest⟩ := Classical.not_imp.mp htest
      obtain ⟨huncovered, hset⟩ := Classical.not_imp.mp htest
      simp only [hrx, if_neg hset] at hs
      cases hs
      exact ⟨huncovered, rfl⟩
  | _ => exact absurd trivial hbad

theorem Lost.congr (h : Lost s) (hcount : s'.RxQueueCount = s.RxQueueCount)
    (hmailbox : s'.mailbox = s.mailbox) (heth : s'.eth = s.eth) (hlate : phase s'.rx = .late) :
    Lost s' := by
  refine ⟨?_, hlate⟩
  rw [Uncovered, hcount, hmailbox, heth]
  exact h.uncovered

/-- All that `wlan_rx_thread` still does is to look for an event of the card. -/
theorem lost_rxRun (h : Lost s) (hs : s.rxRun = some s') : Lost s' ∨ Stuck s' := by
  have hlate := h.late
  unfold State.rxRun at hs
  cases hrx : s.rx with
  | load a | store a reg =>
    rw [hrx] at hlate
    cases a with
    | or ireg => cases hlate
    | clear bit =>
      simp only [hrx] at hs
      cases hs
      exact .inl (h.congr rfl rfl rfl hlate)
  | test bit =>
    rw [hrx] at hlate
    simp only [hrx] at hs
    cases hs
    by_cases hset : bit.isSet s.HisRegCpy = true
    · refine .inl (h.congr rfl rfl rfl ?_)
      simp only [if_pos hset]
      exact hlate
    · cases bit with
      | CmdUpLdRdy | RxUpLdRdy => cases hlate
      | CardEvent => exact .inr ⟨h.uncovered, by simp only [if_neg hset]; rfl⟩
  | process bit =>
    rw [hrx] at hlate
    cases bit with
    | CmdUpLdRdy | RxUpLdRdy => cases hlate
    | CardEvent =>
      simp only [hrx] at hs
      cases hs
      exact .inr ⟨h.uncovered, rfl⟩
  | eventRecv | dataToHost ireg | cmdToHost ireg | eventSend | ready | mbSend =>
    rw [hrx] at hlate
    cases hlate

/-- Nobody else could cover the packet. -/
theorem lost_step (h : Lost s) (hs : step s a = some s') : Lost s' ∨ Stuck s' := by
  have hlate := h.late
  obtain ⟨hcount, hmailbox, heth⟩ := h.uncovered
  cases a with
  | rx => exact lost_rxRun h hs
  | run t =>
    have hnotice := State.run_notice hs
    simp only [State.notice, Prod.mk.injEq] at hnotice
    obtain ⟨hcount, -, hmailbox, hrx, heth⟩ := hnotice
    exact .inl (h.congr hcount hmailbox heth (hrx ▸ hlate))
  | interrupt ireg =>
    simp only [step] at hs
    split at hs
    case h_1 hrx =>
      rw [hrx] at hlate
      cases hlate
    case h_2 => cases hs
  | dataToHost queued | dataToHostFailed | cmdToHostFailed left =>
    simp only [step] at hs
    split at hs
    case h_1 ireg hrx =>
      rw [hrx] at hlate
      cases hlate
    case h_2 => cases hs
  | cmdToHost =>
    simp only [step] at hs
    split at hs
    case h_1 ireg r responses hrx hresponses =>
      rw [hrx] at hlate
      cases hlate
    case h_2 => cases hs
  | mbRecv =>
    simp only [step, heth, hmailbox] at hs
    cases hs
  | rtWlanDevRx =>
    simp only [step, heth] at hs
    cases hs
  | executeCommand t c =>
    simp only [step] at hs
    split at hs
    case h_1 =>
      cases hs
      exact .inl (h.congr rfl rfl rfl hlate)
    case h_2 => cases hs
  | rtWlanDevTx | ethDeviceInit | respond r =>
    cases hs
    exact .inl (h.congr rfl rfl rfl hlate)

end Steps

/-- No run gets stuck as long as the interface is registered when a notice is to be posted, and
    no command thread has wiped out the bit of an uncovered packet; and no run in which
    `wlan_rx_thread` is back at its wait has avoided it in another way. -/
theorem stuck_throughout_iff (acts : List Act) :
    (Along step Benign start acts → Throughout step (fun s => ¬ Stuck s) start acts) ∧
      ∀ s, exec step start acts = some s → s.rx = .eventRecv →
        Throughout step (fun s => ¬ Stuck s) start acts → Along step Benign start acts := by
  refine ⟨throughout_of_along (fun _ h => h.not_stuck) (fun _ _ _ h hok hs => step_keep h hok hs)
    inv_start, fun s hexec hrx => ?_⟩
  refine along_of_throughout (I := Inv) (D := Lost) (E := fun s => s.rx = .eventRecv)
    (fun _ _ _ h hok hs => step_keep h hok hs) (fun _ _ _ h hbad hs => step_break h hbad hs)
    (fun _ _ _ h hs => (lost_step h hs).imp_right not_not_intro) (fun s h hrx => ?_) inv_start hexec hrx
  have hlate := h.late
  rw [hrx] at hlate
  cases hlate

/-- The first packet arrives while `rt_wlan_init` is still talking to the card. -/
def earlyPacket : List Act := [.interrupt 0x01, .dataToHost true] ++ List.replicate 10 .rx

theorem early_packet_stuck :
    ¬ Throughout step (fun s => ¬ Stuck s) start earlyPacket := by
  intro h
  have hend : (exec step start earlyPacket).map State.notice =
      some (1, false, 0, .eventRecv, .mbRecv) := by decide +kernel
  obtain ⟨s, hs, hnotice⟩ := Option.map_eq_some_iff.mp hend
  simp only [State.notice, Prod.mk.injEq] at hnotice
  obtain ⟨hcount, -, hmailbox, hrx, heth⟩ := hnotice
  exact h.exec hs ⟨⟨hcount ▸ Nat.one_pos, hmailbox, heth⟩, hrx⟩

/-- A command thread stores what it loaded before the packet came; the interface is there. -/
example : (exec step start ([.ethDeviceInit, .executeCommand 0 ⟨0x0006, 32, 2, 0⟩, .run 0, .run 0,
    .run 0, .interrupt 0x01, .dataToHost true, .rx, .rx, .rx, .run 0] ++
      List.replicate 3 .rx)).map State.notice = some (1, true, 0, .eventRecv, .mbRecv) := by
  decide +kernel

end RxNotice
