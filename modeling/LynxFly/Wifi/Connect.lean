-- SUMMARY: ConnectSSID in the start-up thread: what its return value tells of the connection.
import LynxFly.Wifi.Join
import LynxFly.Wifi.Scan

/-!
# Connecting to an SSID

`ConnectSSID` (`wlan_main.c`) scans for all access points, picks the first of the
requested SSID and associates with it; `rt_init_thread_entry` (`application.c`) turns
what it returns into `STATE_COMM_FAIL`. Allocations, and the traffic during each
command, are arguments.
-/

namespace Wlan

/-- A command: whether its buffer is allocated, and what comes by while it waits. -/
structure Command where
  CmdPtr : Bool
  during : List Traffic

inductive SecurityMode where
  | NoSecurity
  | WEP
  | WPA_PSK
  | WPA2_PSK
  | UnSupported
  deriving DecidableEq

/-- What `WlanStartAssociation` depends on besides the card. -/
structure AssociationEnv where
  setWep : Command
  controlMac : Command
  mem : AssociateMem
  associate : List Traffic

/-- What `ConnectSSID` depends on besides the card. -/
structure ConnectEnv where
  /-- The 1024 bytes for the results of the scan. -/
  ptr : Option ℕ
  probe : List Traffic
  scan : List Traffic
  infrastructure : Command
  association : AssociationEnv

namespace Card

/-- A function that allocates a command, executes it and frees it. -/
def executeCommand (card : Card) (c : Command) : ℤ × Card :=
  if c.CmdPtr then (WLAN_STATUS_SUCCESS, { card with CurCmd := true }.handleAll c.during)
  else (WLAN_STATUS_FAILURE, card)

/-- `wlan_Control_Mac`. -/
def wlanControlMac (card : Card) (c : Command) : ℤ × Card := card.executeCommand c

/-- `wlan_set_infrastructure`, which compares the mode and does not set it. -/
def wlanSetInfrastructure (card : Card) (c : Command) : ℤ × Card := card.executeCommand c

/-- `set_wep_no_key`, which compares the encryption mode and does not set it. -/
def setWepNoKey (card : Card) (controlMac : Command) : ℤ × Card :=
  { card with SecInfo := { card.SecInfo with WEPStatus := .Disabled } }.wlanControlMac controlMac

/-- `set_wep_materials`, of one key of five bytes. -/
def setWepMaterials (card : Card) (setWep controlMac : Command) : ℤ × Card :=
  let card := { card with SecInfo := { card.SecInfo with WEPStatus := .Enabled } }
  let (ret, card) := card.executeCommand setWep
  if ret ≠ 0 then (ret, card) else card.wlanControlMac controlMac

/-- `wlan_set_wap`, with its wait. -/
def wlanSetWapCall (card : Card) (dstbssid : MacAddress) (mem : AssociateMem)
    (associate : List Traffic) : ℤ × Card :=
  match card.wlanSetWap dstbssid mem with
  | .returned ret => (ret, card)
  | .waiting =>
    let card := card.associateSent.handleAll associate
    (card.wlanSetWapRest WLAN_STATUS_SUCCESS, card)

/-- `Wlan_Association`. -/
def wlanAssociation (card : Card) (mac : MacAddress) (env : AssociationEnv) : ℤ × Card :=
  card.wlanSetWapCall mac env.mem env.associate

/-- `WlanStartAssociation`. -/
def wlanStartAssociation (card : Card) (security : SecurityMode) (mac : MacAddress)
    (env : AssociationEnv) : ℤ × Card :=
  match security with
  | .WEP =>
    let (ret, card) := card.setWepMaterials env.setWep env.controlMac
    if ret = WLAN_STATUS_SUCCESS then card.wlanSetWapCall mac env.mem env.associate
    else (ret, card)
  -- `wlan_set_wpa_info` does nothing
  | .WPA_PSK | .WPA2_PSK => card.wlanAssociation mac env
  | .NoSecurity =>
    let (_, card) := card.setWepNoKey env.controlMac
    card.wlanAssociation mac env
  | .UnSupported => (-1, card)

/-- `WlanScanProbe`. -/
def wlanScanProbe (card : Card) (ptr : Option ℕ) (probe : List Traffic) : Card :=
  match ptr with
  | none => card
  | some ptr => (card.sendScanToGetAPInfo (some ptr) 1024 probe).2

/-- `WlanScanAP`; what its two steps return is not looked at. -/
def wlanScanAP (card : Card) (mac : MacAddress) (ssid : CString) (env : ConnectEnv) : Card :=
  let (_, card) := card.sendSpecificBSSIDScan (some mac) (some ssid) env.scan
  let (_, card) := card.wlanSetInfrastructure env.infrastructure
  card

/-- `WlanConnectTo`. -/
def wlanConnectTo (card : Card) (mac : MacAddress) (ssid : CString) (env : ConnectEnv) :
    ℤ × Card :=
  let card := card.wlanScanAP mac ssid env
  let (ret, card) := card.wlanStartAssociation .NoSecurity mac env.association
  if ret ≠ 0 then (-1, card) else (0, card)

/-- The first half of `ConnectSSID`: the scan for all access points. -/
def connectScan (card : Card) (env : ConnectEnv) : Card :=
  { card.newCall with ScanPurpose := .ScanIdle }.wlanScanProbe env.ptr env.probe

/-- `ConnectSSID`. -/
def connectSSID (card : Card) (Default_SSID connssid : CString) (env : ConnectEnv) : ℤ × Card :=
  let cnt_ssid := if connssid = [] then Default_SSID else connssid
  let card := card.connectScan env
  match card.items.find? (·.Ssid = cnt_ssid) with
  | some item =>
    -- what `WlanConnectTo` returns is not looked at
    let (_, card) := card.wlanConnectTo item.MacAddress cnt_ssid env
    (0, card)
  | none => (-1, card)

/-- `rt_init_thread_entry` is about to call `ConnectSSID`. -/
def connecting (card : Card) : Card := { card with STATE_COMM_CONNECTING := true }

/-- `rt_init_thread_entry`, from the state `rt_wlan_init` left, with what `ConnectSSID`
    returned. -/
def rtInitThreadEntry (card : Card) (Default_SSID : CString) (env : ConnectEnv) : ℤ × Card :=
  let card := card.connecting
  let (ret, card) := card.connectSSID Default_SSID Default_SSID env
  let card := { card with STATE_COMM_FAIL := if ret ≠ 0 then true else false }
  (ret, { card with STATE_COMM_CONNECTING := false })

end Card

namespace Connect

/-- In a call of `ConnectSSID`, the scan found an access point of the SSID, and the card
    accepted the association with it. -/
def Connected (card : Card) (ssid : CString) (env : ConnectEnv) : Prop :=
  ∃ item ∈ (card.connectScan env).scanned, item.Ssid = ssid ∧
    (card.connectSSID ssid ssid env).2.association = .answered item.MacAddress true

/-- The start-up thread reports a connection only if there is one, and otherwise that
    there is none. -/
def Reported (card : Card) (ssid : CString) (env : ConnectEnv) : Prop :=
  ((card.rtInitThreadEntry ssid env).1 = 0 → Connected card.connecting ssid env ∧
    (card.rtInitThreadEntry ssid env).2.STATE_COMM_FAIL = false) ∧
  (¬ Connected card.connecting ssid env → (card.rtInitThreadEntry ssid env).1 ≠ 0 ∧
    (card.rtInitThreadEntry ssid env).2.STATE_COMM_FAIL = true)

/-- The first response to an association, with its result and status. -/
def firstResponse : List Traffic → Option (UInt16 × UInt16)
  | [] => none
  | .associateResponse Result StatusCode :: _ => some (Result, StatusCode)
  | _ :: ts => firstResponse ts

/-- Whether a command is the current one after the traffic. -/
def commanded (CurCmd : Bool) : List Traffic → Bool
  | [] => CurCmd
  | .command :: ts => commanded true ts
  | _ :: ts => commanded CurCmd ts

/-- The results of a scan for all access points. -/
def listed (CurCmd : Bool) (items : List ScanResultItem) : List Traffic → List ScanResultItem
  | [] => items
  | .command :: ts => listed true items ts
  | .scanResponse items' _ :: ts => listed CurCmd (if CurCmd then items ++ items' else items) ts
  | _ :: ts => listed CurCmd items ts

/-- The result of a scan for one. -/
def described (CurCmd : Bool) (table : BSSDescriptor) : List Traffic → BSSDescriptor
  | [] => table
  | .command :: ts => described true table ts
  | .scanResponse _ bss :: ts => described CurCmd (if CurCmd then bss.getD table else table) ts
  | _ :: ts => described CurCmd table ts

/-- Whether an association is in place after the traffic, asked for or not. -/
def associated (CurCmd : Bool) (status : MediaState) : List Traffic → MediaState
  | [] => status
  | .command :: ts => associated true status ts
  | .associateResponse Result StatusCode :: ts =>
    associated CurCmd
      (if CurCmd ∧ Result = HostCmd_RESULT_OK ∧ StatusCode = 0 then .Connected else status) ts
  | _ :: ts => associated CurCmd status ts

/-- The traffic of a command, if its buffer is allocated. -/
def Command.traffic (c : Command) : List Traffic := if c.CmdPtr then .command :: c.during else []

/-- The first access point of the SSID, in the results of the scan or, if it has no
    buffer, in those of the last one. -/
def found (card : Card) (ssid : CString) (env : ConnectEnv) : Option ScanResultItem :=
  (if env.ptr.isSome then listed card.CurCmd [] env.probe else card.items).find? (·.Ssid = ssid)

/-- The access point the second scan describes. -/
def table (card : Card) (env : ConnectEnv) : BSSDescriptor :=
  described (commanded card.CurCmd env.probe) card.ScanTable env.scan

/-- All that comes by before the association. -/
def before (env : ConnectEnv) : List Traffic :=
  env.probe ++ env.scan ++ Command.traffic env.infrastructure ++
    Command.traffic env.association.controlMac

/-- The card with that access point in its table and WEP off. -/
def opened (card : Card) (env : ConnectEnv) : Card :=
  { card with
    ScanTable := table card env
    SecInfo := { card.SecInfo with WEPStatus := .Disabled }
    MediaConnectStatus := associated card.CurCmd card.MediaConnectStatus (before env) }

/-- The scan has its buffer, the access point is the one then described, and of the right
    kind for the card, there is memory for the command, and the card answers with
    success. -/
structure Accepts (card : Card) (item : ScanResultItem) (env : ConnectEnv) : Prop where
  buffer : env.ptr.isSome
  found : (opened card env).FindBSSID item.MacAddress .Infrastructure
  mode : card.InfrastructureMode = .Infrastructure
  infrastructure : (table card env).InfrastructureMode = .Infrastructure
  memory : env.association.mem = ⟨true, true, true⟩
  answer : firstResponse env.association.associate = some (HostCmd_RESULT_OK, 0)

/-- The card as `wlan_set_wap` finds it, after the two scans. -/
def joining (card : Card) (item : ScanResultItem) (ssid : CString) (env : ConnectEnv) : Card :=
  (((card.connectScan env).wlanScanAP item.MacAddress ssid env).setWepNoKey
    env.association.controlMac).2

section Traffic

variable {card : Card}

/-- An association that was not asked for, or is answered, stays as it is. -/
theorem association_handleAll (h : ∀ mac, card.association ≠ .asked mac)
    (traffic : List Traffic) : (card.handleAll traffic).association = card.association := by
  refine Card.handleAll_induct (P := fun c => c.association = card.association) ?_ rfl traffic
  intro c t hc
  rcases c.handle_cases t with ⟨⟨_, _, _, _, _, _, heq⟩, _⟩ | ⟨_, _, _, _, heq⟩
  · rw [heq]
    exact hc
  · rw [heq, ← hc]
    rw [← hc] at h
    unfold Card.retAssociate
    cases hassoc : c.association with
    | none => rfl
    | asked mac => exact absurd hassoc (h mac)
    | answered mac accepted => rfl

theorem curCmd_handle (h : card.CurCmd = true) (t : Traffic) : (card.handle t).CurCmd = true := by
  rcases card.handle_cases t with ⟨⟨_, _, _, _, _, hcur, heq⟩, _⟩ | ⟨_, _, _, _, heq⟩
  · rw [heq]
    exact hcur h
  · rw [heq]
    exact h

/-- An association that was asked for is answered by the first response to one. -/
theorem association_asked {mac mac' : MacAddress} (hcur : card.CurCmd = true)
    (hasked : card.association = .asked mac) (traffic : List Traffic) :
    (card.handleAll traffic).association = .answered mac' true ↔
      firstResponse traffic = some (HostCmd_RESULT_OK, 0) ∧ mac' = mac := by
  induction traffic generalizing card with
  | nil =>
    change card.association = _ ↔ _
    rw [hasked]
    exact iff_of_false nofun fun h => nomatch h.1
  | cons t ts ih =>
    change ((card.handle t).handleAll ts).association = _ ↔ _
    rcases card.handle_cases t with ⟨⟨_, _, _, _, _, _, heq⟩, hother⟩ | ⟨r, s, ht, _, heq⟩
    · have hsame : (card.handle t).association = .asked mac := by
        rw [heq]
        exact hasked
      rw [ih (curCmd_handle hcur t) hsame]
      cases t with
      | associateResponse r s =>
        have hnone := hother r s rfl
        rw [hcur] at hnone
        cases hnone
      | _ => rfl
    · have hanswered : (card.handle t).association =
          .answered mac (r = HostCmd_RESULT_OK ∧ s = 0 : Bool) := by
        rw [heq]
        unfold Card.retAssociate
        rw [hasked]
      subst ht
      rw [association_handleAll (by rw [hanswered]; exact nofun), hanswered]
      unfold firstResponse
      rw [Association.answered.injEq, Option.some.injEq, Prod.mk.injEq, decide_eq_true_iff,
        and_comm, @eq_comm _ mac mac']

/-- Rule for what the traffic makes of one field, in cards whose set-up allows it. -/
theorem field_handleAll {α : Type} (f : Card → α) (g : Bool → α → List Traffic → α)
    {P : Card.Setup → Prop} (hnil : ∀ cur x, g cur x [] = x)
    (hcons : ∀ card t ts, P card.setup →
      g card.CurCmd (f card) (t :: ts) = g (card.handle t).CurCmd (f (card.handle t)) ts)
    (hsetup : P card.setup) (traffic : List Traffic) :
    f (card.handleAll traffic) = g card.CurCmd (f card) traffic := by
  induction traffic generalizing card with
  | nil => exact (hnil _ _).symm
  | cons t ts ih =>
    change f ((card.handle t).handleAll ts) = _
    rw [hcons card t ts hsetup]
    exact ih (by rw [card.setup_handle t]; exact hsetup)

theorem setup_handleAll (card : Card) (traffic : List Traffic) :
    (card.handleAll traffic).setup = card.setup :=
  Card.handleAll_induct (P := fun c => c.setup = card.setup)
    (fun c t hc => (c.setup_handle t).trans hc) rfl traffic

theorem curCmd_handleAll (traffic : List Traffic) :
    (card.handleAll traffic).CurCmd = commanded card.CurCmd traffic := by
  refine field_handleAll (P := fun _ => True) (·.CurCmd) (fun _ x => commanded x) (fun _ _ => rfl)
    (fun card t ts _ => ?_) trivial traffic
  cases t with
  | command => rfl
  | scanResponse items bss =>
    change _ = commanded (if card.CurCmd then card.retScan items bss else card).CurCmd ts
    obtain ⟨_, _, heq⟩ := card.retScan_eq items bss
    rw [heq]
    split <;> rfl
  | associateResponse r s =>
    change _ = commanded (if card.CurCmd then card.retAssociate r s else card).CurCmd ts
    split <;> rfl
  | response => rfl
  | event e =>
    obtain ⟨_, _, heq⟩ := card.processEvent_eq e
    change _ = commanded (card.processEvent e).CurCmd ts
    rw [heq]
    rfl

/-- A scan for all access points lists them. -/
theorem items_handleAll (hpurpose : card.ScanPurpose = .ScanMultichs)
    (hinfo : card.ScanResultInfo.isSome) (traffic : List Traffic) :
    (card.handleAll traffic).items = listed card.CurCmd card.items traffic := by
  refine field_handleAll
    (P := fun setup => setup.ScanPurpose = .ScanMultichs ∧ setup.ScanResultInfo.isSome)
    (·.items) listed (fun _ _ => rfl) (fun card t ts hsetup => ?_) ⟨hpurpose, hinfo⟩ traffic
  obtain ⟨hpurpose, hinfo⟩ : card.ScanPurpose = .ScanMultichs ∧ card.ScanResultInfo.isSome := hsetup
  cases t with
  | command => rfl
  | scanResponse items bss =>
    obtain ⟨buf, hbuf⟩ := Option.isSome_iff_exists.mp hinfo
    have hret : card.retScan items bss =
        { card with items := card.items ++ items, scanned := card.scanned ++ items } := by
      unfold Card.retScan
      rw [hpurpose, hbuf]
    change listed _ (if card.CurCmd then card.items ++ items else card.items) ts =
      listed (if card.CurCmd then card.retScan items bss else card).CurCmd
        (if card.CurCmd then card.retScan items bss else card).items ts
    rw [hret]
    split <;> rfl
  | associateResponse r s =>
    change _ = listed (if card.CurCmd then card.retAssociate r s else card).CurCmd
      (if card.CurCmd then card.retAssociate r s else card).items ts
    split <;> rfl
  | response => rfl
  | event e =>
    obtain ⟨_, _, heq⟩ := card.processEvent_eq e
    change _ = listed (card.processEvent e).CurCmd (card.processEvent e).items ts
    rw [heq]
    rfl

/-- A scan for one access point describes it. -/
theorem scanTable_handleAll (hpurpose : card.ScanPurpose = .ScanFilter) (traffic : List Traffic) :
    (card.handleAll traffic).ScanTable = described card.CurCmd card.ScanTable traffic := by
  refine field_handleAll (P := fun setup => setup.ScanPurpose = .ScanFilter)
    (·.ScanTable) described (fun _ _ => rfl) (fun card t ts hsetup => ?_) hpurpose traffic
  have hpurpose : card.ScanPurpose = .ScanFilter := hsetup
  cases t with
  | command => rfl
  | scanResponse items bss =>
    have hret : card.retScan items bss = { card with ScanTable := bss.getD card.ScanTable } := by
      unfold Card.retScan
      rw [hpurpose]
    change described _ (if card.CurCmd then bss.getD card.ScanTable else card.ScanTable) ts =
      described (if card.CurCmd then card.retScan items bss else card).CurCmd
        (if card.CurCmd then card.retScan items bss else card).ScanTable ts
    rw [hret]
    split <;> rfl
  | associateResponse r s =>
    change _ = described (if card.CurCmd then card.retAssociate r s else card).CurCmd
      (if card.CurCmd then card.retAssociate r s else card).ScanTable ts
    split <;> rfl
  | response => rfl
  | event e =>
    obtain ⟨_, _, heq⟩ := card.processEvent_eq e
    change _ = described (card.processEvent e).CurCmd (card.processEvent e).ScanTable ts
    rw [heq]
    rfl

/-- Any other scan leaves the table as it is. -/
theorem scanTable_handleAll_of_ne (hpurpose : card.ScanPurpose ≠ .ScanFilter)
    (traffic : List Traffic) : (card.handleAll traffic).ScanTable = card.ScanTable := by
  refine field_handleAll (P := fun setup => setup.ScanPurpose ≠ .ScanFilter)
    (·.ScanTable) (fun _ x _ => x) (fun _ _ => rfl) (fun card t ts hsetup => ?_) hpurpose traffic
  have hpurpose : card.ScanPurpose ≠ .ScanFilter := hsetup
  cases t with
  | command => rfl
  | scanResponse items bss =>
    have hret : (card.retScan items bss).ScanTable = card.ScanTable := by
      unfold Card.retScan
      split
      · split <;> rfl
      · exact absurd ‹_› hpurpose
      · rfl
    change _ = (if card.CurCmd then card.retScan items bss else card).ScanTable
    split
    · exact hret.symm
    · rfl
  | associateResponse r s =>
    change _ = (if card.CurCmd then card.retAssociate r s else card).ScanTable
    split <;> rfl
  | response => rfl
  | event e =>
    obtain ⟨_, _, heq⟩ := card.processEvent_eq e
    change _ = (card.processEvent e).ScanTable
    rw [heq]

theorem mediaConnectStatus_handleAll (traffic : List Traffic) :
    (card.handleAll traffic).MediaConnectStatus =
      associated card.CurCmd card.MediaConnectStatus traffic := by
  refine field_handleAll (P := fun _ => True) (·.MediaConnectStatus) associated (fun _ _ => rfl)
    (fun card t ts _ => ?_) trivial traffic
  cases t with
  | command => rfl
  | scanResponse items bss =>
    change _ = associated (if card.CurCmd then card.retScan items bss else card).CurCmd
      (if card.CurCmd then card.retScan items bss else card).MediaConnectStatus ts
    obtain ⟨_, _, heq⟩ := card.retScan_eq items bss
    rw [heq]
    split <;> rfl
  | associateResponse r s =>
    change associated _ (if card.CurCmd ∧ r = HostCmd_RESULT_OK ∧ s = 0 then .Connected
      else card.MediaConnectStatus) ts =
      associated (if card.CurCmd then card.retAssociate r s else card).CurCmd
        (if card.CurCmd then card.retAssociate r s else card).MediaConnectStatus ts
    unfold Card.retAssociate
    cases hcur : card.CurCmd with
    | false => simp [hcur]
    | true => simp
  | response => rfl
  | event e =>
    obtain ⟨_, _, heq⟩ := card.processEvent_eq e
    change _ = associated (card.processEvent e).CurCmd (card.processEvent e).MediaConnectStatus ts
    rw [heq]
    rfl

theorem associated_append (cur : Bool) (status : MediaState) (ts ts' : List Traffic) :
    associated cur status (ts ++ ts') =
      associated (commanded cur ts) (associated cur status ts) ts' := by
  induction ts generalizing cur status with
  | nil => rfl
  | cons t ts ih =>
    cases t with
    | command => exact ih true status
    | scanResponse items bss => exact ih cur status
    | associateResponse r s => exact ih cur _
    | response => exact ih cur status
    | event e => exact ih cur status

theorem commanded_append (cur : Bool) (ts ts' : List Traffic) :
    commanded cur (ts ++ ts') = commanded (commanded cur ts) ts' := by
  induction ts generalizing cur with
  | nil => rfl
  | cons t ts ih =>
    cases t with
    | command => exact ih true
    | scanResponse items bss => exact ih cur
    | associateResponse r s => exact ih cur
    | response => exact ih cur
    | event e => exact ih cur

/-- Of what was scanned since the list was emptied, the list holds all. -/
theorem scanned_handleAll (h : card.scanned = card.items) (traffic : List Traffic) :
    (card.handleAll traffic).scanned = (card.handleAll traffic).items := by
  refine Card.handleAll_induct (P := fun c => c.scanned = c.items) ?_ h traffic
  intro c t hc
  rcases c.handle_cases t with ⟨⟨_, _, _, _, _, _, heq⟩, _⟩ | ⟨_, _, _, _, heq⟩
  · rw [heq]
    exact congrArg (· ++ _) hc
  · rw [heq]
    exact hc

end Traffic

section Scans

variable {card : Card}

theorem association_none_handleAll (h : card.association = .none) (traffic : List Traffic) :
    (card.handleAll traffic).association = .none := by
  rw [association_handleAll (by rw [h]; exact nofun), h]

theorem association_none_sendScanToGetAPInfo (h : card.association = .none) (buf : Option ℕ)
    (buflen : ℤ) (during : List Traffic) :
    (card.sendScanToGetAPInfo buf buflen during).2.association = .none := by
  unfold Card.sendScanToGetAPInfo
  split
  · exact h
  · dsimp only
    split
    · exact association_none_handleAll (by exact h) during
    · exact h

theorem association_none_sendSpecificBSSIDScan (h : card.association = .none)
    (bssid : Option MacAddress) (ssid : Option CString) (during : List Traffic) :
    (card.sendSpecificBSSIDScan bssid ssid during).2.association = .none := by
  unfold Card.sendSpecificBSSIDScan
  split
  · exact h
  · split
    · exact association_none_handleAll (by exact h) during
    · exact h

theorem association_none_executeCommand (h : card.association = .none) (c : Command) :
    (card.executeCommand c).2.association = .none := by
  unfold Card.executeCommand
  split
  · exact association_none_handleAll (by exact h) c.during
  · exact h

/-- Until `wlan_set_wap` no association is asked for. -/
theorem association_joining (card : Card) (item : ScanResultItem) (ssid : CString)
    (env : ConnectEnv) : (joining card item ssid env).association = .none := by
  have hscan : (card.connectScan env).association = .none := by
    unfold Card.connectScan Card.wlanScanProbe
    split
    · rfl
    · exact association_none_sendScanToGetAPInfo (by rfl) _ _ _
  have hspecific := association_none_sendSpecificBSSIDScan hscan (some item.MacAddress)
    (some ssid) env.scan
  have hinfra := association_none_executeCommand hspecific env.infrastructure
  exact association_none_executeCommand (by exact hinfra) env.association.controlMac

/-- A scan without a buffer finds nothing; one with a buffer finds what is then in the
    list. -/
theorem scanned_connectScan (card : Card) (env : ConnectEnv) :
    (card.connectScan env).scanned =
      if env.ptr.isSome then (card.connectScan env).items else [] := by
  unfold Card.connectScan Card.wlanScanProbe
  cases env.ptr with
  | none => rfl
  | some ptr =>
    rw [if_pos (by rfl)]
    exact scanned_handleAll (by rfl) env.probe

/-- The list `ConnectSSID` looks through. -/
theorem items_connectScan (card : Card) (env : ConnectEnv) :
    (card.connectScan env).items =
      if env.ptr.isSome then listed card.CurCmd [] env.probe else card.items := by
  unfold Card.connectScan Card.wlanScanProbe
  cases env.ptr with
  | none => rfl
  | some ptr =>
    rw [if_pos (by rfl)]
    exact items_handleAll (by rfl) (by rfl) env.probe

/-- What `wlan_set_wap` asks of the card before it sends the command. -/
structure View where
  ScanTable : BSSDescriptor
  MediaConnectStatus : MediaState
  InfrastructureMode : NetworkInfrastructure
  SecInfo : SecurityInfo
  AdhocAESEnabled : Bool

def view (card : Card) : View :=
  ⟨card.ScanTable, card.MediaConnectStatus, card.InfrastructureMode, card.SecInfo,
    card.AdhocAESEnabled⟩

theorem findBSSID_congr {card card' : Card} (h : view card = view card') (mac : MacAddress)
    (mode : NetworkInfrastructure) : card.FindBSSID mac mode ↔ card'.FindBSSID mac mode := by
  obtain ⟨htable, hstatus, hmode, hsec, haes⟩ := View.mk.inj h
  unfold Card.FindBSSID Card.IsNetworkCompatible Card.SecurityMatches
  rw [htable, hstatus, hmode, hsec, haes]

/-- Traffic, outside of a scan for one access point. -/
theorem view_handleAll (hpurpose : card.ScanPurpose ≠ .ScanFilter) (traffic : List Traffic) :
    view (card.handleAll traffic) =
      ⟨card.ScanTable, associated card.CurCmd card.MediaConnectStatus traffic,
        card.InfrastructureMode, card.SecInfo, card.AdhocAESEnabled⟩ := by
  obtain ⟨_, _, _, hmode, hsec, haes, _⟩ := Card.Setup.mk.inj (setup_handleAll card traffic)
  unfold view
  rw [scanTable_handleAll_of_ne hpurpose, mediaConnectStatus_handleAll, hmode, hsec, haes]

theorem view_handleAll_filter (hpurpose : card.ScanPurpose = .ScanFilter)
    (traffic : List Traffic) :
    view (card.handleAll traffic) =
      ⟨described card.CurCmd card.ScanTable traffic,
        associated card.CurCmd card.MediaConnectStatus traffic, card.InfrastructureMode,
        card.SecInfo, card.AdhocAESEnabled⟩ := by
  obtain ⟨_, _, _, hmode, hsec, haes, _⟩ := Card.Setup.mk.inj (setup_handleAll card traffic)
  unfold view
  rw [scanTable_handleAll hpurpose, mediaConnectStatus_handleAll, hmode, hsec, haes]

theorem executeCommand_card (card : Card) (c : Command) :
    (card.executeCommand c).2 = card.handleAll (Command.traffic c) := by
  unfold Card.executeCommand Command.traffic
  split
  · rfl
  · rfl

theorem connectScan_stage (card : Card) {env : ConnectEnv} (hptr : env.ptr.isSome) :
    (card.connectScan env).ScanPurpose = .ScanIdle ∧
    (card.connectScan env).CurCmd = commanded card.CurCmd env.probe ∧
    view (card.connectScan env) =
      ⟨card.ScanTable, associated card.CurCmd card.MediaConnectStatus env.probe,
        card.InfrastructureMode, card.SecInfo, card.AdhocAESEnabled⟩ := by
  obtain ⟨ptr, hptr⟩ := Option.isSome_iff_exists.mp hptr
  let probing : Card :=
    { card.newCall with
      ScanPurpose := .ScanMultichs
      ScanResulMuxsize := 1024
      ScanResultInfo := some ptr
      items := [] }
  have hscan : card.connectScan env =
      { probing.handleAll env.probe with ScanPurpose := .ScanIdle } := by
    unfold Card.connectScan
    rw [hptr]
    rfl
  rw [hscan]
  exact ⟨rfl, @curCmd_handleAll probing env.probe, @view_handleAll probing nofun env.probe⟩

theorem sendSpecificBSSIDScan_stage {card : Card} (hpurpose : card.ScanPurpose = .ScanIdle)
    (mac : MacAddress) (ssid : CString) (during : List Traffic) :
    (card.sendSpecificBSSIDScan (some mac) (some ssid) during).2.ScanPurpose = .ScanMultichs ∧
    (card.sendSpecificBSSIDScan (some mac) (some ssid) during).2.CurCmd =
      commanded card.CurCmd during ∧
    view (card.sendSpecificBSSIDScan (some mac) (some ssid) during).2 =
      ⟨described card.CurCmd card.ScanTable during,
        associated card.CurCmd card.MediaConnectStatus during, card.InfrastructureMode,
        card.SecInfo, card.AdhocAESEnabled⟩ := by
  let scanning : Card := { card with ScanPurpose := .ScanFilter }
  have hscan : (card.sendSpecificBSSIDScan (some mac) (some ssid) during).2 =
      { scanning.handleAll during with ScanPurpose := .ScanMultichs } := by
    unfold Card.sendSpecificBSSIDScan
    rw [if_neg (by simp), if_pos hpurpose]
    rfl
  rw [hscan]
  exact ⟨rfl, @curCmd_handleAll scanning during, @view_handleAll_filter scanning rfl during⟩

/-- `wlan_set_wap` is called with the access point of the second scan, and WEP off. -/
theorem view_joining {card : Card} {env : ConnectEnv} (hptr : env.ptr.isSome)
    (item : ScanResultItem) (ssid : CString) :
    view (joining card item ssid env) = view (opened card env) := by
  obtain ⟨hidle, hcur, hview⟩ := connectScan_stage card hptr
  obtain ⟨hmultichs, hcur', hview'⟩ :=
    sendSpecificBSSIDScan_stage hidle item.MacAddress ssid env.scan
  obtain ⟨htable, hstatus, hmode, hsec, haes⟩ := View.mk.inj hview
  rw [hcur, htable, hstatus, hmode, hsec, haes] at hview'
  rw [hcur] at hcur'
  -- the two commands after the scans
  let scanned : Card := ((card.connectScan env).sendSpecificBSSIDScan (some item.MacAddress)
    (some ssid) env.scan).2
  let told : Card := scanned.handleAll (Command.traffic env.infrastructure)
  let off : Card := { told with SecInfo := { told.SecInfo with WEPStatus := .Disabled } }
  have hjoining : joining card item ssid env =
      off.handleAll (Command.traffic env.association.controlMac) := by
    have htold : (card.connectScan env).wlanScanAP item.MacAddress ssid env = told :=
      executeCommand_card scanned env.infrastructure
    unfold joining
    rw [htold]
    exact executeCommand_card off env.association.controlMac
  have hpurpose : off.ScanPurpose ≠ .ScanFilter := by
    have htold : told.ScanPurpose = .ScanMultichs :=
      (Card.Setup.mk.inj (setup_handleAll scanned _)).1.trans hmultichs
    change told.ScanPurpose ≠ .ScanFilter
    rw [htold]
    nofun
  have htoldView := @view_handleAll scanned (by rw [hmultichs]; nofun)
    (Command.traffic env.infrastructure)
  have htoldCur := @curCmd_handleAll scanned (Command.traffic env.infrastructure)
  obtain ⟨htable', hstatus', hmode', hsec', haes'⟩ := View.mk.inj hview'
  obtain ⟨htold₁, htold₂, htold₃, htold₄, htold₅⟩ := View.mk.inj htoldView
  rw [hjoining, view_handleAll hpurpose]
  change View.mk told.ScanTable
    (associated told.CurCmd told.MediaConnectStatus (Command.traffic env.association.controlMac))
    told.InfrastructureMode { told.SecInfo with WEPStatus := .Disabled } told.AdhocAESEnabled = _
  rw [htold₁, htold₂, htold₃, htold₄, htold₅, htoldCur, htable', hstatus', hmode', hsec', haes',
    hcur', ← commanded_append, ← commanded_append, ← associated_append, ← associated_append,
    ← associated_append, ← List.append_assoc env.probe]
  rfl

end Scans

section Association

variable {card : Card} {mac : MacAddress} {mem : AssociateMem}

theorem wlanCmdAssociate_eq_waiting_iff :
    Card.wlanCmdAssociate mem = .waiting ↔ mem = ⟨true, true, true⟩ := by
  obtain ⟨CmdPtr, tempuf, rates⟩ := mem
  cases CmdPtr with
  | false => simp [Card.wlanCmdAssociate]
  | true =>
    cases tempuf with
    | false => simp [Card.wlanCmdAssociate]
    | true =>
      cases rates with
      | false => simp [Card.wlanCmdAssociate]
      | true => simp [Card.wlanCmdAssociate]

/-- When the association command is sent. -/
theorem wlanSetWap_eq_waiting_iff :
    card.wlanSetWap mac mem = .waiting ↔
      card.FindBSSID mac .Infrastructure ∧ card.InfrastructureMode = .Infrastructure ∧
      card.ScanTable.InfrastructureMode = .Infrastructure ∧ mem = ⟨true, true, true⟩ := by
  unfold Card.wlanSetWap
  by_cases hmode : card.InfrastructureMode = .Infrastructure
  · rw [hmode]
    by_cases hfind : card.FindBSSID mac .Infrastructure
    · by_cases htable : card.ScanTable.InfrastructureMode = .Infrastructure
      · rw [if_neg (not_not.mpr hfind), if_pos rfl, if_neg (not_not.mpr htable)]
        rw [← wlanCmdAssociate_eq_waiting_iff]
        cases hcmd : Card.wlanCmdAssociate mem with
        | returned ret => exact iff_of_false nofun fun h => nomatch h.2.2.2
        | waiting => exact iff_of_true rfl ⟨hfind, rfl, htable, rfl⟩
      · rw [if_neg (not_not.mpr hfind), if_pos rfl, if_pos htable]
        exact iff_of_false nofun fun h => htable h.2.2.1
    · rw [if_pos hfind]
      exact iff_of_false nofun fun h => hfind h.1
  · split
    · exact iff_of_false nofun fun h => hmode h.2.1
    · exact iff_of_false nofun fun h => hmode h.2.1

/-- When the card accepts the association of a call. -/
theorem association_wlanSetWapCall (h : card.association = .none) (associate : List Traffic)
    (mac' : MacAddress) :
    (card.wlanSetWapCall mac mem associate).2.association = .answered mac' true ↔
      card.wlanSetWap mac mem = .waiting ∧
      firstResponse associate = some (HostCmd_RESULT_OK, 0) ∧ mac' = mac := by
  unfold Card.wlanSetWapCall
  cases hwap : card.wlanSetWap mac mem with
  | returned ret =>
    dsimp only
    rw [h]
    exact iff_of_false nofun nofun
  | waiting =>
    have hmac : card.ScanTable.MacAddress = mac := (wlanSetWap_eq_waiting_iff.mp hwap).1.1
    have hasked : card.associateSent.association = .asked mac := congrArg Association.asked hmac
    dsimp only
    rw [association_asked (by rfl) hasked]
    exact (and_iff_right rfl).symm

end Association

/-- What the start-up thread sees of `ConnectSSID`, and the flag it leaves. -/
theorem rtInitThreadEntry_eq (card : Card) (ssid : CString) (env : ConnectEnv) :
    (card.rtInitThreadEntry ssid env).1 = (card.connecting.connectSSID ssid ssid env).1 ∧
    ((card.rtInitThreadEntry ssid env).2.STATE_COMM_FAIL = true ↔
      (card.connecting.connectSSID ssid ssid env).1 ≠ 0) := by
  unfold Card.rtInitThreadEntry
  refine ⟨rfl, ?_⟩
  dsimp only
  split
  · exact iff_of_true rfl ‹_›
  · exact iff_of_false nofun ‹_›

/-- The return value tells that the SSID is listed, and no more. -/
theorem connectSSID_eq (card : Card) (ssid : CString) (env : ConnectEnv) :
    card.connectSSID ssid ssid env =
      match (card.connectScan env).items.find? (·.Ssid = ssid) with
      | some item => (0, ((card.connectScan env).wlanConnectTo item.MacAddress ssid env).2)
      | none => (-1, card.connectScan env) := by
  unfold Card.connectSSID
  rw [ite_self]

theorem association_wlanConnectTo (card : Card) (item : ScanResultItem) (ssid : CString)
    (env : ConnectEnv) :
    ((card.connectScan env).wlanConnectTo item.MacAddress ssid env).2.association =
      ((joining card item ssid env).wlanSetWapCall item.MacAddress env.association.mem
        env.association.associate).2.association := by
  unfold Card.wlanConnectTo
  dsimp only
  split
  · rfl
  · rfl

theorem connected_iff {card : Card} {item : ScanResultItem} {ssid : CString} {env : ConnectEnv}
    (hitem : (card.connectScan env).items.find? (·.Ssid = ssid) = some item) :
    Connected card ssid env ↔ Accepts card item env := by
  have hfound := List.find?_some hitem
  have hssid : item.Ssid = ssid := of_decide_eq_true hfound
  have hmem : item ∈ (card.connectScan env).items := List.mem_of_find?_eq_some hitem
  have hcall := @association_wlanSetWapCall (joining card item ssid env) item.MacAddress
    env.association.mem (association_joining card item ssid env) env.association.associate
  have hassoc : ∀ mac, (card.connectSSID ssid ssid env).2.association = .answered mac true ↔
      (joining card item ssid env).wlanSetWap item.MacAddress env.association.mem = .waiting ∧
      firstResponse env.association.associate = some (HostCmd_RESULT_OK, 0) ∧
      mac = item.MacAddress := by
    intro mac
    rw [connectSSID_eq, hitem]
    dsimp only
    rw [association_wlanConnectTo, hcall]
  unfold Connected
  rw [scanned_connectScan]
  constructor
  · rintro ⟨item', hmem', _, haccepted⟩
    have hptr : env.ptr.isSome := by
      by_contra hptr
      rw [if_neg hptr] at hmem'
      cases hmem'
    have hview := @view_joining card env hptr item ssid
    obtain ⟨hwaiting, hfirst, _⟩ := (hassoc item'.MacAddress).mp haccepted
    obtain ⟨hfind, hmode, htable, hmem⟩ := wlanSetWap_eq_waiting_iff.mp hwaiting
    obtain ⟨htable', _, hmode', _, _⟩ := View.mk.inj hview
    exact ⟨hptr, (findBSSID_congr hview _ _).mp hfind, hmode'.symm.trans hmode,
      (congrArg _ htable').symm.trans htable, hmem, hfirst⟩
  · intro h
    have hview := @view_joining card env h.buffer item ssid
    obtain ⟨htable', _, hmode', _, _⟩ := View.mk.inj hview
    rw [if_pos h.buffer]
    refine ⟨item, hmem, hssid, (hassoc item.MacAddress).mpr ⟨?_, h.answer, rfl⟩⟩
    exact wlanSetWap_eq_waiting_iff.mpr ⟨(findBSSID_congr hview _ _).mpr h.found,
      hmode'.trans h.mode, (congrArg _ htable').trans h.infrastructure, h.memory⟩

/-- The report is true exactly when the list does not hold the SSID, or the association
    with the first access point of it is accepted. -/
theorem reported_iff (card : Card) (ssid : CString) (env : ConnectEnv) :
    Reported card ssid env ↔
      ∀ item, found card ssid env = some item → Accepts card item env := by
  have hlist : (card.connecting.connectScan env).items.find? (·.Ssid = ssid) =
      found card ssid env := by
    rw [items_connectScan]
    rfl
  obtain ⟨hret, hflag⟩ := rtInitThreadEntry_eq card ssid env
  unfold Reported
  rw [hret, hflag, ← Bool.not_eq_true, hflag]
  cases hitem : found card ssid env with
  | none =>
    have hnone : (card.connecting.connectSSID ssid ssid env).1 = -1 := by
      rw [connectSSID_eq, hlist, hitem]
    rw [hnone]
    refine iff_of_true ⟨fun h => absurd h (by decide), fun _ => ⟨by decide, by decide⟩⟩ nofun
  | some item =>
    have hzero : (card.connecting.connectSSID ssid ssid env).1 = 0 := by
      rw [connectSSID_eq, hlist, hitem]
    rw [hzero]
    have hconnected : Connected card.connecting ssid env ↔ Accepts card item env := by
      rw [connected_iff (hlist.trans hitem)]
      exact ⟨fun h => ⟨h.buffer, h.found, h.mode, h.infrastructure, h.memory, h.answer⟩,
        fun h => ⟨h.buffer, h.found, h.mode, h.infrastructure, h.memory, h.answer⟩⟩
    constructor
    · rintro ⟨htrue, _⟩ item' heq
      cases heq
      exact hconnected.mp (htrue rfl).1
    · intro haccepts
      have htrue := hconnected.mpr (haccepts item rfl)
      exact ⟨fun _ => ⟨htrue, not_not.mpr rfl⟩, fun h => absurd htrue h⟩

/-- The access point of the SSID refuses the association. -/
def refusedEnv : ConnectEnv where
  ptr := some 4096
  probe := [.command, .scanResponse [⟨Join.openBss.MacAddress, [0x61]⟩] none]
  scan := [.command, .scanResponse [] (some Join.openBss)]
  infrastructure := ⟨true, [.response]⟩
  association :=
    { setWep := ⟨true, []⟩
      controlMac := ⟨true, [.response]⟩
      mem := ⟨true, true, true⟩
      associate := [.associateResponse 0 1] }

theorem refused_not_reported : ¬ Reported .wlanInitCard [0x61] refusedEnv := by
  rintro ⟨hconnected, _⟩
  obtain ⟨⟨item, _, _, haccepted⟩, _⟩ := hconnected rfl
  have hrefused : Association.answered Join.openBss.MacAddress false =
    .answered item.MacAddress true := haccepted
  exact absurd (Association.answered.inj hrefused).2 (by decide)

end Connect

end Wlan
