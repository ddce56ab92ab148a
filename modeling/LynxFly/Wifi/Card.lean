-- SUMMARY: The driver's state for scanning and joining, and what the receiving thread does to it.
import LynxFly.Wifi.Constants

/-!
# The card

The fields of `WlanCard` (`wlan_dev.h`) that scanning and joining a network go by, the
bits of `StateFlag` that tell the flight controller of the link, and how the receiving
thread changes them: `wlan_process_rx_command` and `wlan_process_event`
(`wlan_cmdresp.c`).
-/

namespace Wlan

abbrev EINVAL : ℤ := 22
abbrev ENETDOWN : ℤ := 100
abbrev ENETUNREACH : ℤ := 101

abbrev MacAddress := Vector UInt8 6

/-- A string, without its terminator. -/
abbrev CString := List UInt8

inductive SysScanStatus where
  | ScanIdle
  | ScanMultichs
  | ScanFilter
  deriving DecidableEq

inductive MediaState where
  | Disconnected
  | Connected
  deriving DecidableEq

/-- `WLAN_802_11_NETWORK_INFRASTRUCTURE`. -/
inductive NetworkInfrastructure where
  | IBSS
  | Infrastructure
  | AutoUnknown
  deriving DecidableEq

inductive WEPStatus where
  | Enabled
  | Disabled
  | KeyAbsent
  | NotSupported
  deriving DecidableEq

inductive EncryptionMode where
  | CIPHER_NONE
  | CIPHER_WEP40
  | CIPHER_TKIP
  | CIPHER_CCMP
  | CIPHER_WEP104
  deriving DecidableEq

/-- `wlan_802_11_security_t`. -/
structure SecurityInfo where
  WPAEnabled : Bool
  WPA2Enabled : Bool
  WEPStatus : WEPStatus
  EncryptionMode : EncryptionMode

/-- What joining reads of a `BSSDescriptor_t`. -/
structure BSSDescriptor where
  MacAddress : MacAddress
  Privacy : UInt32
  InfrastructureMode : NetworkInfrastructure
  /-- `wpaIE.VendHdr.ElementId`. -/
  wpaIE : UInt8
  /-- `rsnIE.IeeeHdr.ElementId`. -/
  rsnIE : UInt8

/-- What connecting reads of a `ScanResultItem`. -/
structure ScanResultItem where
  MacAddress : MacAddress
  Ssid : CString

/-- The last association command of the present call, and the answer to it. -/
inductive Association where
  | none
  | asked (mac : MacAddress)
  | answered (mac : MacAddress) (accepted : Bool)
  deriving DecidableEq

/-- What makes or ends a connection. -/
inductive LinkEvent where
  | associated
  | refused
  | deauthenticated
  | disassociated
  | linkLost
  deriving DecidableEq

structure Card where
  /-- `CurCmd` is not `NULL`. -/
  CurCmd : Bool
  ScanPurpose : SysScanStatus
  ScanResultInfo : Option ℕ
  ScanResulMuxsize : ℕ
  /-- The first `ScanResultcount` items of the buffer. -/
  items : List ScanResultItem
  ScanTable : BSSDescriptor
  InfrastructureMode : NetworkInfrastructure
  MediaConnectStatus : MediaState
  SecInfo : SecurityInfo
  AdhocAESEnabled : Bool
  STATE_COMM_FAIL : Bool
  STATE_COMM_CONNECTING : Bool
  -- a record of what came by
  scanned : List ScanResultItem
  association : Association
  last : Option LinkEvent

/-- What the receiving thread meets, and commands as they are sent. -/
inductive Traffic where
  /-- `DownloadCommandToStation` makes a command the current one. -/
  | command
  /-- A response to a scan, with what either parser would make of it. -/
  | scanResponse (items : List ScanResultItem) (bss : Option BSSDescriptor)
  | associateResponse (Result StatusCode : UInt16)
  /-- Any other response, and a response to a scan with an error. -/
  | response
  | event (eventcause : UInt32)

def MACREG_INT_CODE_LINK_LOST : UInt32 := 3
def MACREG_INT_CODE_DEAUTHENTICATED : UInt32 := 8
def MACREG_INT_CODE_DISASSOCIATED : UInt32 := 9

namespace Card

/-- The state `wlan_init_card` leaves, of a card that was all zeros. -/
def wlanInitCard : Card where
  CurCmd := false
  ScanPurpose := .ScanIdle
  ScanResultInfo := none
  ScanResulMuxsize := 0
  items := []
  ScanTable := ⟨Vector.replicate 6 0, 0, .IBSS, 0, 0⟩
  InfrastructureMode := .Infrastructure
  MediaConnectStatus := .Disconnected
  SecInfo := ⟨false, false, .Enabled, .CIPHER_NONE⟩
  AdhocAESEnabled := false
  STATE_COMM_FAIL := true
  STATE_COMM_CONNECTING := false
  scanned := []
  association := .none
  last := none

def ScanResultcount (card : Card) : ℕ := card.items.length

/-- `HostCmd_RET_802_11_SCAN` in `wlan_process_rx_command`. -/
def retScan (card : Card) (items : List ScanResultItem) (bss : Option BSSDescriptor) : Card :=
  match card.ScanPurpose with
  | .ScanMultichs =>
    -- `InterruptScanResult` skips everything without a buffer
    match card.ScanResultInfo with
    | none => card
    | some _ => { card with items := card.items ++ items, scanned := card.scanned ++ items }
  | .ScanFilter => { card with ScanTable := bss.getD card.ScanTable }
  | .ScanIdle => card

/-- `HostCmd_RET_802_11_ASSOCIATE` in `wlan_process_rx_command`: an erroneous response is
    not looked into, and one with another status only logged. -/
def retAssociate (card : Card) (Result StatusCode : UInt16) : Card :=
  let accepted : Bool := Result = HostCmd_RESULT_OK ∧ StatusCode = 0
  { card with
    MediaConnectStatus := if accepted then .Connected else card.MediaConnectStatus
    association :=
      match card.association with
      | .asked mac => .answered mac accepted
      | other => other
    last := some (if accepted then .associated else .refused) }

/-- `wlan_process_event`. -/
def processEvent (card : Card) (eventcause : UInt32) : Card :=
  if eventcause = MACREG_INT_CODE_DEAUTHENTICATED then
    { card with STATE_COMM_FAIL := true, last := some .deauthenticated }
  -- these two are only logged
  else if eventcause = MACREG_INT_CODE_DISASSOCIATED then
    { card with last := some .disassociated }
  else if eventcause = MACREG_INT_CODE_LINK_LOST then
    { card with last := some .linkLost }
  else card

def handle (card : Card) : Traffic → Card
  | .command => { card with CurCmd := true }
  | .scanResponse items bss => if card.CurCmd then card.retScan items bss else card
  | .associateResponse Result StatusCode =>
    if card.CurCmd then card.retAssociate Result StatusCode else card
  | .response => card
  | .event eventcause => card.processEvent eventcause

/-- A call starts, with nothing scanned and no association so far. -/
def newCall (card : Card) : Card := { card with scanned := [], association := .none }

/-- What comes by while a function waits. -/
def handleAll (card : Card) (traffic : List Traffic) : Card := traffic.foldl handle card

/-- What the receiving thread leaves alone. -/
structure Setup where
  ScanPurpose : SysScanStatus
  ScanResultInfo : Option ℕ
  ScanResulMuxsize : ℕ
  InfrastructureMode : NetworkInfrastructure
  SecInfo : SecurityInfo
  AdhocAESEnabled : Bool
  STATE_COMM_CONNECTING : Bool

def setup (card : Card) : Setup where
  ScanPurpose := card.ScanPurpose
  ScanResultInfo := card.ScanResultInfo
  ScanResulMuxsize := card.ScanResulMuxsize
  InfrastructureMode := card.InfrastructureMode
  SecInfo := card.SecInfo
  AdhocAESEnabled := card.AdhocAESEnabled
  STATE_COMM_CONNECTING := card.STATE_COMM_CONNECTING

theorem retScan_eq (card : Card) (items : List ScanResultItem) (bss : Option BSSDescriptor) :
    ∃ items' table, card.retScan items bss =
      { card with
        items := card.items ++ items'
        scanned := card.scanned ++ items'
        ScanTable := table } := by
  have hsame : ∃ items' table, card =
      { card with
        items := card.items ++ items'
        scanned := card.scanned ++ items'
        ScanTable := table } := by
    refine ⟨[], card.ScanTable, ?_⟩
    rw [List.append_nil, List.append_nil]
  unfold retScan
  split
  · split
    · exact hsame
    · exact ⟨items, card.ScanTable, rfl⟩
  · refine ⟨[], bss.getD card.ScanTable, ?_⟩
    rw [List.append_nil, List.append_nil]
  · exact hsame

theorem processEvent_eq (card : Card) (eventcause : UInt32) :
    ∃ fail last, card.processEvent eventcause =
      { card with STATE_COMM_FAIL := fail, last := last } := by
  unfold processEvent
  split
  · exact ⟨true, some .deauthenticated, rfl⟩
  · split
    · exact ⟨card.STATE_COMM_FAIL, some .disassociated, rfl⟩
    · split
      · exact ⟨card.STATE_COMM_FAIL, some .linkLost, rfl⟩
      · exact ⟨card.STATE_COMM_FAIL, card.last, rfl⟩

/-- What a step of the receiving thread can change, unless it is a response to an
    association. -/
def Inert (card card' : Card) : Prop :=
  ∃ cur items table fail last, (card.CurCmd = true → cur = true) ∧
    card' =
      { card with
        CurCmd := cur
        items := card.items ++ items
        scanned := card.scanned ++ items
        ScanTable := table
        STATE_COMM_FAIL := fail
        last := last }

theorem Inert.refl (card : Card) : Inert card card := by
  refine ⟨card.CurCmd, [], card.ScanTable, card.STATE_COMM_FAIL, card.last, id, ?_⟩
  rw [List.append_nil, List.append_nil]

/-- The one inversion of a step. -/
theorem handle_cases (card : Card) (t : Traffic) :
    (Inert card (card.handle t) ∧ ∀ r s, t = .associateResponse r s → card.CurCmd = false) ∨
    ∃ r s, t = .associateResponse r s ∧ card.CurCmd = true ∧
      card.handle t = card.retAssociate r s := by
  cases t with
  | command =>
    left
    refine ⟨⟨true, [], card.ScanTable, card.STATE_COMM_FAIL, card.last, fun _ => rfl, ?_⟩, nofun⟩
    rw [List.append_nil, List.append_nil]
    rfl
  | scanResponse items bss =>
    left
    refine ⟨?_, nofun⟩
    change Inert card (if card.CurCmd then card.retScan items bss else card)
    split
    · obtain ⟨items', table, heq⟩ := card.retScan_eq items bss
      rw [heq]
      exact ⟨card.CurCmd, items', table, card.STATE_COMM_FAIL, card.last, id, rfl⟩
    · exact Inert.refl card
  | associateResponse Result StatusCode =>
    cases hcur : card.CurCmd with
    | true =>
      right
      refine ⟨Result, StatusCode, rfl, rfl, ?_⟩
      exact if_pos hcur
    | false =>
      left
      have hsame : card.handle (.associateResponse Result StatusCode) = card :=
        if_neg (by simp [hcur])
      rw [hsame]
      exact ⟨Inert.refl card, fun _ _ _ => rfl⟩
  | response => exact .inl ⟨Inert.refl card, nofun⟩
  | event eventcause =>
    left
    obtain ⟨fail, last, heq⟩ := card.processEvent_eq eventcause
    change Inert card (card.processEvent eventcause) ∧ _
    rw [heq]
    refine ⟨⟨card.CurCmd, [], card.ScanTable, fail, last, id, ?_⟩, nofun⟩
    rw [List.append_nil, List.append_nil]

theorem setup_handle (card : Card) (t : Traffic) : (card.handle t).setup = card.setup := by
  rcases card.handle_cases t with ⟨⟨_, _, _, _, _, _, heq⟩, _⟩ | ⟨_, _, _, _, heq⟩
  · rw [heq]
    rfl
  · rw [heq]
    rfl

/-- Rule for traffic: what every step keeps. -/
theorem handleAll_induct {P : Card → Prop} (hkeep : ∀ card t, P card → P (card.handle t))
    {card : Card} (h : P card) (traffic : List Traffic) : P (card.handleAll traffic) := by
  unfold handleAll
  induction traffic generalizing card with
  | nil => exact h
  | cons t ts ih => exact ih (hkeep card t h)

end Card

end Wlan
