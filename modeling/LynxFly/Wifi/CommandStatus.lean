-- SUMMARY: The status WlanExecuteCommand returns, against what became of the command.
import LynxFly.Wifi.Card
import LynxFly.Wifi.ExecuteCommand

/-!
# The status of a command

One call of `WlanExecuteCommand` (`wlan_cmd.c`), with the status of `sbi_host_to_card`
and the status with which `wlan_process_rx_command` (`wlan_cmdresp.c`) processes each
response. The receiving thread may take its steps at any point of the call.
-/

open Interleaving Wlan
open Wlan.Threads (HostCmd CmdCtrl curCmdRetCode)
open ExecuteCommand (scanCommand)

namespace CommandStatus

def HostCmd_RET_HW_SPEC_INFO : UInt16 := 0x8003
def HostCmd_RET_802_11_SCAN : UInt16 := 0x8006
def HostCmd_RET_802_11_ASSOCIATE : UInt16 := 0x8012

/-- The handlers that may fail. The others return `WLAN_STATUS_SUCCESS`. -/
inductive Handler where
  | wlanRetGetHwSpec
  | wlanparserScanResult
  | wlanRet80211Scan
  | wlanRet80211Associate

/-- A response, and the status of each handler when it is called with it. -/
structure Response extends HostCmd where
  handled : Handler → ℤ

/-- The card, as far as commands go. -/
structure CmdCard extends CmdCtrl where
  ScanPurpose : SysScanStatus

/-! ## The receiving thread -/

/-- Which of the handlers the `switch` calls. -/
def handler (ScanPurpose : Wlan.SysScanStatus) (RespCmd : UInt16) : Option Handler :=
  if RespCmd = HostCmd_RET_HW_SPEC_INFO then some .wlanRetGetHwSpec
  else if RespCmd = HostCmd_RET_802_11_SCAN then
    match ScanPurpose with
    | .ScanMultichs => some .wlanparserScanResult
    | .ScanFilter => some .wlanRet80211Scan
    | .ScanIdle => none
  else if RespCmd = HostCmd_RET_802_11_ASSOCIATE then some .wlanRet80211Associate
  else none

/-- The `switch` of `wlan_process_rx_command`. -/
def switchResp (ScanPurpose : Wlan.SysScanStatus) (resp : Response) : ℤ :=
  match handler ScanPurpose resp.Command with
  | some h => resp.handled h
  | none => WLAN_STATUS_SUCCESS

/-- `wlan_process_rx_command`, with `resp` in `CmdResBuf`. -/
def wlanProcessRxCommand (card : CmdCard) (resp : Response) : CmdCard × ℤ :=
  let woken := { card with CurCmdRetCode := curCmdRetCode resp.toHostCmd, cmdwaitevent := true }
  if card.CurCmd = none then (card, WLAN_STATUS_FAILURE)
  else if resp.Command &&& 0x8000 = 0 then (woken, WLAN_STATUS_FAILURE)
  else if resp.Result ≠ HostCmd_RESULT_OK then (woken, WLAN_STATUS_FAILURE)
  else (woken, switchResp card.ScanPurpose resp)

/-! ## The call -/

/-- Where the call stands, with `ret` of `DownloadCommandToStation`. -/
inductive Pc where
  | download
  | hostToCard
  | eventRecv (ret : ℤ)
  /-- `WlanExecuteCommand` has returned. -/
  | returned (ret : ℤ)

/-- A call of `WlanExecuteCommand`, and a record of what became of its command. -/
structure Call where
  card : CmdCard
  CmdPtr : Option HostCmd
  pc : Pc
  /-- What `sbi_host_to_card` returned. -/
  sent : Option ℤ
  /-- The responses processed since the command became the current one. -/
  processed : List Response

def call (card : CmdCard) (CmdPtr : Option HostCmd) : Call := ⟨card, CmdPtr, .download, none, []⟩

inductive Act where
  /-- The calling thread goes on. -/
  | run
  /-- `sbi_host_to_card` returns this status. -/
  | hostToCard (ret : ℤ)
  /-- The receiving thread processes a response. -/
  | processRxCommand (resp : Response)

/-- `WlanExecuteCommand` once `DownloadCommandToStation` has returned: the status of
    that function is dropped. -/
def wlanExecuteCommand (_downloaded : ℤ) : ℤ :=
  let ret := WLAN_STATUS_SUCCESS
  ret

namespace Call

def ret (s : Call) (downloaded : ℤ) : Call :=
  { s with pc := .returned (wlanExecuteCommand downloaded) }

/-- The record starts when the command becomes the current one. -/
def download (s : Call) (c : HostCmd) : Call :=
  { s with card := { s.card with CurCmd := some c }, pc := .hostToCard, processed := [] }

def process (s : Call) (resp : Response) : Call :=
  { s with
    card := (wlanProcessRxCommand s.card resp).1
    processed := s.processed ++ [resp] }

end Call

def step (s : Call) : Act → Option Call
  | .run =>
    match s.pc with
    | .download =>
      match s.CmdPtr with
      | none => some (s.ret WLAN_STATUS_FAILURE)
      | some c => if c.Size = 0 then some (s.ret WLAN_STATUS_FAILURE) else some (s.download c)
    | .eventRecv _ =>
      -- suspended until the event is set; `ret` is overwritten after the wait
      if s.card.cmdwaitevent then
        some ({ s with card := { s.card with cmdwaitevent := false } }.ret WLAN_STATUS_SUCCESS)
      else none
    | _ => none
  | .hostToCard ret =>
    match s.pc with
    | .hostToCard => some { s with pc := .eventRecv ret, sent := some ret }
    | _ => none
  | .processRxCommand resp =>
    match s.pc with
    | .returned _ => none
    | _ => some (s.process resp)

/-! ## Success -/

/-- The response reports success, and its handler does not fail. -/
def Response.Succeeds (ScanPurpose : Wlan.SysScanStatus) (resp : Response) : Prop :=
  resp.Command &&& 0x8000 ≠ 0 ∧ resp.Result = HostCmd_RESULT_OK ∧
    switchResp ScanPurpose resp = WLAN_STATUS_SUCCESS

/-- The command was sent, and the response it was woken for reports success. Of several
    it is the last, whose code `CurCmdRetCode` keeps. -/
def Call.Succeeded (s : Call) : Prop :=
  s.sent = some WLAN_STATUS_SUCCESS ∧
    ∃ resp, s.processed.getLast? = some resp ∧ resp.Succeeds s.card.ScanPurpose

/-- A status that tells the caller, which tests it by `if (ret)`. -/
def Call.Propagates (s : Call) (ret : ℤ) : Prop :=
  (ret = WLAN_STATUS_SUCCESS → s.Succeeded) ∧ (¬ s.Succeeded → ret ≠ WLAN_STATUS_SUCCESS)

/-! ## Every call -/

section Runs

variable {card : CmdCard} {CmdPtr : Option HostCmd} {acts : List Act} {s s' : Call} {a : Act} {ret : ℤ}

/-- What a step can be. -/
theorem step_cases (h : step s a = some s') :
    ((∀ c, s.CmdPtr = some c → c.Size = 0) ∧ s' = s.ret WLAN_STATUS_FAILURE) ∨
    (s.card.cmdwaitevent = true ∧
      s' = { s with card := { s.card with cmdwaitevent := false } }.ret WLAN_STATUS_SUCCESS) ∨
    (∃ c, s.CmdPtr = some c ∧ s' = s.download c) ∨
    (∃ status, s' = { s with pc := .eventRecv status, sent := some status }) ∨
    ∃ resp, a = .processRxCommand resp ∧ s' = s.process resp := by
  obtain ⟨card, CmdPtr, pc, sent, processed⟩ := s
  unfold step at h
  cases a with
  | run =>
    cases pc with
    | download =>
      cases CmdPtr with
      | none =>
        cases h
        exact .inl ⟨nofun, rfl⟩
      | some c =>
        simp only at h
        split at h
        case isTrue hsize =>
          cases h
          refine .inl ⟨fun c' hc' => ?_, rfl⟩
          cases hc'
          exact hsize
        case isFalse hsize =>
          cases h
          exact .inr (.inr (.inl ⟨c, rfl, rfl⟩))
    | eventRecv status =>
      simp only at h
      split at h
      case isTrue hevent =>
        cases h
        exact .inr (.inl ⟨hevent, rfl⟩)
      case isFalse hevent => cases h
    | hostToCard | returned status => cases h
  | hostToCard status =>
    cases pc with
    | hostToCard =>
      cases h
      exact .inr (.inr (.inr (.inl ⟨status, rfl⟩)))
    | download | eventRecv status | returned status => cases h
  | processRxCommand resp =>
    cases pc with
    | returned status => cases h
    | download | hostToCard | eventRecv status =>
      cases h
      exact .inr (.inr (.inr (.inr ⟨resp, rfl, rfl⟩)))

/-- Whatever the status of the parts, the call returns success. -/
theorem returns_success (hrun : exec step (call card CmdPtr) acts = some s)
    (hret : s.pc = .returned ret) : ret = WLAN_STATUS_SUCCESS := by
  have hkeep : ∀ (s : Call) (a : Act) (s' : Call),
      (∀ ret, s.pc = .returned ret → ret = WLAN_STATUS_SUCCESS) → step s a = some s' →
        ∀ ret, s'.pc = .returned ret → ret = WLAN_STATUS_SUCCESS := by
    intro s a s' ih hs ret hret
    rcases step_cases hs with ⟨-, rfl⟩ | ⟨-, rfl⟩ | ⟨c, -, rfl⟩ | ⟨status, rfl⟩ | ⟨resp, -, rfl⟩
    · cases hret
      rfl
    · cases hret
      rfl
    · cases hret
    · cases hret
    · exact ih ret hret
  exact exec_keep hkeep (fun ret hret => by cases hret) hrun ret hret

/-- Unless a response is processed, the wait never ends: not even when the command
    could not be sent. -/
theorem waits_without_response {c : HostCmd} (hsize : c.Size ≠ 0)
    (hevent : card.cmdwaitevent = false) (hno : ∀ resp, Act.processRxCommand resp ∉ acts)
    (hrun : exec step (call card (some c)) acts = some s) : s.pc ≠ .returned ret := by
  have hkeep : ∀ (s : Call) (a : Act) (s' : Call),
      (s.CmdPtr = some c ∧ s.card.cmdwaitevent = false ∧ ∀ ret, s.pc ≠ .returned ret) →
        (∀ resp, a ≠ .processRxCommand resp) → step s a = some s' →
          s'.CmdPtr = some c ∧ s'.card.cmdwaitevent = false ∧ ∀ ret, s'.pc ≠ .returned ret := by
    rintro s a s' ⟨hcmd, hclear, hpc⟩ ha hs
    rcases step_cases hs with ⟨hzero, -⟩ | ⟨hset, -⟩ | ⟨c', -, rfl⟩ | ⟨status, rfl⟩ | ⟨resp, rfl, -⟩
    · exact absurd (hzero c hcmd) hsize
    · rw [hclear] at hset
      cases hset
    · exact ⟨hcmd, hclear, nofun⟩
    · exact ⟨hcmd, hclear, nofun⟩
    · exact absurd rfl (ha resp)
  have hstart : (call card (some c)).CmdPtr = some c ∧
      (call card (some c)).card.cmdwaitevent = false ∧
        ∀ ret, (call card (some c)).pc ≠ .returned ret := ⟨rfl, hevent, nofun⟩
  have hall := throughout_of_along (fun _ h => h) hkeep hstart
    (along_of_forall fun a ha _ resp hresp => hno resp (hresp ▸ ha))
  exact (hall.exec hrun).2.2 ret

/-- A call returns a status that tells what became of the command exactly when the
    command was sent and answered with success. -/
theorem executeCommand_propagates_iff (hrun : exec step (call card CmdPtr) acts = some s)
    (hret : s.pc = .returned ret) : s.Propagates ret ↔ s.Succeeded := by
  have hsuccess := returns_success hrun hret
  constructor
  · intro h
    exact h.1 hsuccess
  · intro h
    exact ⟨fun _ => h, fun hno => absurd h hno⟩

end Runs

/-- A card that waits for nothing. -/
def idleCard : CmdCard := ⟨⟨none, 0, false⟩, .ScanIdle⟩

/-- A response of this kind and result, whose handler does not fail. -/
def response (Command Result : UInt16) : Response := ⟨⟨Command, 8, 2, Result⟩, fun _ => 0⟩

/-- One command, and the response to it. -/
def answeredRun (resp : Response) : List Act :=
  [.run, .hostToCard 0, .processRxCommand resp, .run]

/-- Where it ends. -/
def answeredCall (resp : Response) : Call where
  card := ⟨⟨some scanCommand, curCmdRetCode resp.toHostCmd, false⟩, .ScanIdle⟩
  CmdPtr := some scanCommand
  pc := .returned 0
  sent := some 0
  processed := [resp]

theorem scanCommand_propagates : (answeredCall (response 0x8006 0)).Propagates 0 ↔
    (answeredCall (response 0x8006 0)).Succeeded := by
  have hrun : exec step (call idleCard (some scanCommand)) (answeredRun (response 0x8006 0)) =
      some (answeredCall (response 0x8006 0)) := rfl
  exact executeCommand_propagates_iff hrun rfl

/-- The card refuses the command, and the call returns success. -/
theorem refusedCommand_not_propagates :
    exec step (call idleCard (some scanCommand)) (answeredRun (response 0x8006 1)) =
        some (answeredCall (response 0x8006 1)) ∧
      ¬ (answeredCall (response 0x8006 1)).Propagates 0 := by
  refine ⟨rfl, fun h => ?_⟩
  obtain ⟨-, resp, hlast, -, hresult, -⟩ := h.1 rfl
  cases hlast
  exact absurd hresult (by decide)

end CommandStatus
