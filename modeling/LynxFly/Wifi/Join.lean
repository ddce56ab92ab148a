-- SUMMARY: wlan_set_wap, association responses and link events, in any order.
import LynxFly.Base.Interleaving
import LynxFly.Wifi.Card
import Mathlib.Tactic.ByContra

/-!
# Joining a network

`wlan_set_wap` (`wlan_join.c`) waits inside `WlanExecuteCommand` for the receiving
thread to handle the response to its association command. It is given in two parts, up
to that wait and after it.
-/

open Interleaving

namespace Wlan

/-- What `wlan_cmd_802_11_associate` depends on besides the card: its two allocations,
    and `setup_rates_from_bssdesc`. -/
structure AssociateMem where
  CmdPtr : Bool
  tempuf : Bool
  rates : Bool

/-- A function that may wait in `WlanExecuteCommand`. -/
inductive Called where
  | returned (ret : ℤ)
  | waiting
  deriving DecidableEq

namespace Card

/-- The security settings and those of the access point match, in one of six ways. -/
def SecurityMatches (card : Card) : Prop :=
  let sec := card.SecInfo
  let bss := card.ScanTable
  -- no security
  (sec.WEPStatus = .Disabled ∧ !sec.WPAEnabled ∧ !sec.WPA2Enabled ∧ bss.wpaIE ≠ WPA_IE ∧
    bss.rsnIE ≠ RSN_IE ∧ !card.AdhocAESEnabled ∧ sec.EncryptionMode = .CIPHER_NONE ∧
    bss.Privacy = 0) ∨
  -- static WEP
  (sec.WEPStatus = .Enabled ∧ !sec.WPAEnabled ∧ !sec.WPA2Enabled ∧ !card.AdhocAESEnabled ∧
    bss.Privacy ≠ 0) ∨
  -- WPA
  (sec.WEPStatus = .Disabled ∧ sec.WPAEnabled ∧ !sec.WPA2Enabled ∧ bss.wpaIE = WPA_IE ∧
    !card.AdhocAESEnabled) ∨
  -- WPA2
  (sec.WEPStatus = .Disabled ∧ !sec.WPAEnabled ∧ sec.WPA2Enabled ∧ bss.rsnIE = RSN_IE ∧
    !card.AdhocAESEnabled) ∨
  -- ad-hoc AES
  (sec.WEPStatus = .Disabled ∧ !sec.WPAEnabled ∧ !sec.WPA2Enabled ∧ bss.wpaIE ≠ WPA_IE ∧
    bss.rsnIE ≠ RSN_IE ∧ card.AdhocAESEnabled ∧ sec.EncryptionMode = .CIPHER_NONE ∧
    bss.Privacy ≠ 0) ∨
  -- dynamic WEP
  (sec.WEPStatus = .Disabled ∧ !sec.WPAEnabled ∧ !sec.WPA2Enabled ∧ bss.wpaIE ≠ WPA_IE ∧
    bss.rsnIE ≠ RSN_IE ∧ !card.AdhocAESEnabled ∧ sec.EncryptionMode ≠ .CIPHER_NONE ∧
    bss.Privacy ≠ 0)

instance (card : Card) : Decidable card.SecurityMatches := inferInstanceAs (Decidable (_ ∨ _))

def IsNetworkCompatible (card : Card) (mode : NetworkInfrastructure) : Prop :=
  -- no check while connected
  (card.MediaConnectStatus = .Connected ∧ card.InfrastructureMode = .Infrastructure) ∨
  (card.ScanTable.InfrastructureMode = mode ∧ card.SecurityMatches)

instance (card : Card) (mode : NetworkInfrastructure) : Decidable (card.IsNetworkCompatible mode) :=
  inferInstanceAs (Decidable (_ ∨ _))

def FindBSSID (card : Card) (bssid : MacAddress) (mode : NetworkInfrastructure) : Prop :=
  card.ScanTable.MacAddress = bssid ∧
    (mode = .Infrastructure ∨ mode = .IBSS) ∧ card.IsNetworkCompatible mode

instance (card : Card) (bssid : MacAddress) (mode : NetworkInfrastructure) :
    Decidable (card.FindBSSID bssid mode) :=
  inferInstanceAs (Decidable (_ ∧ _))

/-- `wlan_cmd_802_11_associate`, up to the wait. -/
def wlanCmdAssociate (mem : AssociateMem) : Called :=
  if !mem.CmdPtr then .returned WLAN_STATUS_FAILURE
  -- the failure leaves `ret` at success
  else if !mem.tempuf then .returned WLAN_STATUS_SUCCESS
  else if !mem.rates then .returned WLAN_STATUS_FAILURE
  else .waiting

/-- The rest of `wlan_associate`, with what `wlan_cmd_802_11_associate` returned. -/
def wlanAssociateRest (card : Card) (ret : ℤ) : ℤ :=
  if ret ≠ 0 ∨ card.MediaConnectStatus ≠ .Connected then -ENETUNREACH else ret

/-- The end of `wlan_set_wap`. -/
def connectedStatus (card : Card) : ℤ :=
  if card.MediaConnectStatus = .Connected then WLAN_STATUS_SUCCESS else -ENETDOWN

/-- The rest of `wlan_set_wap`, with what `wlan_cmd_802_11_associate` returned. -/
def wlanSetWapRest (card : Card) (ret : ℤ) : ℤ :=
  let ret := card.wlanAssociateRest ret
  if ret ≠ 0 then ret else card.connectedStatus

/-- The association command of `wlan_set_wap` goes out. -/
def associateSent (card : Card) : Card :=
  { card with CurCmd := true, association := .asked card.ScanTable.MacAddress }

/-- `wlan_set_wap`, up to the wait. -/
def wlanSetWap (card : Card) (dstbssid : MacAddress) (mem : AssociateMem) : Called :=
  if ¬ card.FindBSSID dstbssid card.InfrastructureMode then .returned (-ENETUNREACH)
  else if card.InfrastructureMode = .Infrastructure then
    if card.ScanTable.InfrastructureMode ≠ .Infrastructure then .returned (-EINVAL)
    else
      match wlanCmdAssociate mem with
      | .returned ret => .returned (card.wlanSetWapRest ret)
      | .waiting => .waiting
  else .returned card.connectedStatus

end Card

namespace Join

/-- How things stood when `wlan_set_wap` was called. -/
structure Call where
  last : Option LinkEvent
  STATE_COMM_FAIL : Bool

structure Return where
  call : Call
  ret : ℤ
  association : Association

structure State where
  card : Card
  /-- The call that waits. -/
  call : Option Call
  returns : List Return

def start : State := ⟨.wlanInitCard, none, []⟩

inductive Act where
  | wlanSetWap (dstbssid : MacAddress) (mem : AssociateMem)
  /-- `WlanExecuteCommand` returns to the call that waits. -/
  | executed
  | traffic (t : Traffic)
  /-- The scan functions set their purpose. -/
  | scanPurpose (purpose : SysScanStatus)
  /-- The security functions set theirs. -/
  | security (sec : SecurityInfo)
  /-- The start-up thread sets or clears `STATE_COMM_FAIL`. -/
  | commFail (fail : Bool)

def State.returned (s : State) (call : Call) (ret : ℤ) : State :=
  { s with call := none, returns := s.returns ++ [⟨call, ret, s.card.association⟩] }

def step (s : State) : Act → Option State
  | .wlanSetWap dstbssid mem =>
    match s.call with
    | some _ => none
    | none =>
      let call : Call := ⟨s.card.last, s.card.STATE_COMM_FAIL⟩
      let card := s.card.newCall
      match card.wlanSetWap dstbssid mem with
      | .returned ret => some ({ s with card }.returned call ret)
      | .waiting => some { s with card := card.associateSent, call := some call }
  | .executed =>
    match s.call with
    | some call => some (s.returned call (s.card.wlanSetWapRest WLAN_STATUS_SUCCESS))
    | none => none
  | .traffic t => some { s with card := s.card.handle t }
  | .scanPurpose purpose => some { s with card := { s.card with ScanPurpose := purpose } }
  | .security sec => some { s with card := { s.card with SecInfo := sec } }
  | .commFail fail => some { s with card := { s.card with STATE_COMM_FAIL := fail } }

/-- The response to the call's own command was the one of success. -/
def Return.Accepted (r : Return) : Prop := ∃ mac, r.association = .answered mac true

structure JoinOk (s : State) : Prop where
  success : ∀ r ∈ s.returns, r.ret = WLAN_STATUS_SUCCESS → r.Accepted
  connected : s.card.MediaConnectStatus = .Connected → s.card.last = some .associated
  /-- After a refusal or the loss of a link the flag is set, or the next call fails
      unless it is accepted. -/
  lost : ∀ r ∈ s.returns, r.call.last ≠ none → r.call.last ≠ some .associated →
    r.call.STATE_COMM_FAIL ∨ r.ret ≠ WLAN_STATUS_SUCCESS ∨ r.Accepted

/-- The card is told that it is not, or not any more, connected. -/
def EndsLink (card : Card) : Traffic → Prop
  | .associateResponse Result StatusCode =>
    card.CurCmd ∧ ¬ (Result = HostCmd_RESULT_OK ∧ StatusCode = 0)
  | .event eventcause => eventcause = MACREG_INT_CODE_DEAUTHENTICATED ∨
    eventcause = MACREG_INT_CODE_DISASSOCIATED ∨ eventcause = MACREG_INT_CODE_LINK_LOST
  | _ => False

/-- While connected: no link ends, no association goes without its buffer, and a call
    that returns was itself accepted. -/
def Benign (s : State) (a : Act) : Prop :=
  s.card.MediaConnectStatus = .Connected →
    match a with
    | .wlanSetWap dstbssid mem =>
      s.card.ScanTable.MacAddress = dstbssid →
      s.card.ScanTable.InfrastructureMode = .Infrastructure → mem.CmdPtr → mem.tempuf
    | .executed => ∃ mac, s.card.association = .answered mac true
    | .traffic t => ¬ EndsLink s.card t
    | _ => True

structure Inv (s : State) : Prop where
  infrastructure : s.card.InfrastructureMode = .Infrastructure
  connected : s.card.MediaConnectStatus = .Connected → s.card.last = some .associated
  success : ∀ r ∈ s.returns, r.ret = WLAN_STATUS_SUCCESS → r.Accepted

theorem Inv.joinOk {s : State} (h : Inv s) : JoinOk s where
  success := h.success
  connected := h.connected
  lost r hr _ _ := by
    by_cases hret : r.ret = WLAN_STATUS_SUCCESS
    · exact .inr (.inr (h.success r hr hret))
    · exact .inr (.inl hret)

theorem inv_start : Inv start := ⟨rfl, nofun, nofun⟩

section Steps

variable {s s' : State} {a : Act} {card : Card}

theorem wlanSetWapRest_eq_success_iff {ret : ℤ} :
    card.wlanSetWapRest ret = WLAN_STATUS_SUCCESS ↔
      ret = 0 ∧ card.MediaConnectStatus = .Connected := by
  unfold Card.wlanSetWapRest Card.wlanAssociateRest Card.connectedStatus
  by_cases hok : ret = 0 ∧ card.MediaConnectStatus = .Connected
  · obtain ⟨hret, hmedia⟩ := hok
    simp [hret, hmedia]
  · have hfail : ret ≠ 0 ∨ card.MediaConnectStatus ≠ .Connected := not_and_or.mp hok
    rw [if_pos hfail]
    have hcode : -ENETUNREACH ≠ 0 := by decide
    dsimp only
    rw [if_pos hcode]
    exact iff_of_false hcode hok

/-- `wlan_set_wap` succeeds without waiting only if it was connected before and had no
    memory for its buffer. -/
theorem wlanSetWap_eq_success_iff (hmode : card.InfrastructureMode = .Infrastructure)
    {dstbssid : MacAddress} {mem : AssociateMem} :
    card.wlanSetWap dstbssid mem = .returned WLAN_STATUS_SUCCESS ↔
      card.MediaConnectStatus = .Connected ∧ card.ScanTable.MacAddress = dstbssid ∧
      card.ScanTable.InfrastructureMode = .Infrastructure ∧ mem.CmdPtr ∧ ¬ mem.tempuf := by
  unfold Card.wlanSetWap
  by_cases hfind : card.FindBSSID dstbssid card.InfrastructureMode
  · rw [if_neg (not_not.mpr hfind), if_pos hmode]
    by_cases htable : card.ScanTable.InfrastructureMode = .Infrastructure
    · rw [if_neg (not_not.mpr htable)]
      unfold Card.wlanCmdAssociate
      cases hcmd : mem.CmdPtr with
      | false =>
        have hfail : card.wlanSetWapRest WLAN_STATUS_FAILURE ≠ WLAN_STATUS_SUCCESS := by
          rw [ne_eq, wlanSetWapRest_eq_success_iff]
          exact fun h => absurd h.1 (by decide)
        simp [hfail]
      | true =>
        cases htempuf : mem.tempuf with
        | false => simp [wlanSetWapRest_eq_success_iff, htable, hfind.1]
        | true =>
          cases hrates : mem.rates with
          | false =>
            have hfail : card.wlanSetWapRest WLAN_STATUS_FAILURE ≠ WLAN_STATUS_SUCCESS := by
              rw [ne_eq, wlanSetWapRest_eq_success_iff]
              exact fun h => absurd h.1 (by decide)
            simp [hfail]
          | true => simp
    · rw [if_pos htable]
      refine iff_of_false (by decide) fun h => htable h.2.2.1
  · rw [if_pos hfind]
    refine iff_of_false (by decide) fun h => hfind ⟨h.2.1, .inl hmode, .inl ⟨h.1, hmode⟩⟩

/-- A call that returns fails, or is recorded as one that was accepted. -/
theorem Inv.returned (h : Inv s) {call : Call} {ret : ℤ}
    (hret : ret = WLAN_STATUS_SUCCESS → ∃ mac, s.card.association = .answered mac true) :
    Inv (s.returned call ret) where
  infrastructure := h.infrastructure
  connected := h.connected
  success r hr hr0 := by
    rcases List.mem_append.mp hr with hmem | hmem
    · exact h.success r hmem hr0
    · rw [List.mem_singleton] at hmem
      subst hmem
      exact hret hr0

theorem not_joinOk_returned {call : Call}
    (h : ∀ mac, s.card.association ≠ .answered mac true) :
    ¬ JoinOk (s.returned call WLAN_STATUS_SUCCESS) := by
  intro hok
  obtain ⟨mac, hmac⟩ := hok.success _ (List.mem_append_right _ (List.mem_singleton.mpr rfl)) rfl
  exact h mac hmac

/-- The end of a link is recorded, and the card not told. -/
theorem handle_of_endsLink {t : Traffic} (h : EndsLink card t) :
    (card.handle t).MediaConnectStatus = card.MediaConnectStatus ∧
      (card.handle t).last ≠ some .associated := by
  cases t with
  | associateResponse Result StatusCode =>
    obtain ⟨hcur, hrefused⟩ := h
    simp [Card.handle, Card.retAssociate, hcur, hrefused]
  | event eventcause =>
    rcases h with rfl | rfl | rfl
    · exact ⟨rfl, nofun⟩
    · exact ⟨rfl, nofun⟩
    · exact ⟨rfl, nofun⟩
  | command | scanResponse _ _ | response => exact absurd h id

/-- Otherwise the link is new, or as it was. -/
theorem handle_of_not_endsLink {t : Traffic} (h : ¬ EndsLink card t) :
    (card.handle t).last = some .associated ∨
      (card.handle t).MediaConnectStatus = card.MediaConnectStatus ∧
        (card.handle t).last = card.last := by
  cases t with
  | command => exact .inr ⟨rfl, rfl⟩
  | scanResponse items bss =>
    right
    change (if card.CurCmd then card.retScan items bss else card).MediaConnectStatus = _ ∧
      (if card.CurCmd then card.retScan items bss else card).last = _
    split
    · obtain ⟨items', table, heq⟩ := card.retScan_eq items bss
      rw [heq]
      exact ⟨rfl, rfl⟩
    · exact ⟨rfl, rfl⟩
  | associateResponse Result StatusCode =>
    by_cases hcur : card.CurCmd
    · have haccepted : Result = HostCmd_RESULT_OK ∧ StatusCode = 0 := by
        by_contra hrefused
        exact h ⟨hcur, hrefused⟩
      left
      simp [Card.handle, Card.retAssociate, hcur, haccepted]
    · right
      simp [Card.handle, hcur]
  | response => exact .inr ⟨rfl, rfl⟩
  | event eventcause =>
    right
    have hothers := not_or.mp h
    obtain ⟨hdisassociated, hlost⟩ := not_or.mp hothers.2
    simp [Card.handle, Card.processEvent, hothers.1, hdisassociated, hlost]

theorem step_keep (h : Inv s) (hok : Benign s a) (hs : step s a = some s') : Inv s' := by
  cases a with
  | wlanSetWap dstbssid mem =>
    cases hcall : s.call with
    | some call => simp [step, hcall] at hs
    | none =>
      have hsuccess := @wlanSetWap_eq_success_iff s.card.newCall h.infrastructure dstbssid mem
      cases hwap : s.card.newCall.wlanSetWap dstbssid mem with
      | returned ret =>
        simp only [step, hcall, hwap] at hs
        cases hs
        have hkeep : Inv { s with card := s.card.newCall } :=
          ⟨h.infrastructure, h.connected, h.success⟩
        refine hkeep.returned fun hret => ?_
        rw [hret] at hwap
        obtain ⟨hmedia, hmac, hmode, hcmd, htempuf⟩ := hsuccess.mp hwap
        exact absurd (hok hmedia hmac hmode hcmd) htempuf
      | waiting =>
        simp only [step, hcall, hwap] at hs
        cases hs
        exact ⟨h.infrastructure, h.connected, h.success⟩
  | executed =>
    cases hcall : s.call with
    | none => simp [step, hcall] at hs
    | some call =>
      simp only [step, hcall] at hs
      cases hs
      refine h.returned fun hret => ?_
      exact hok (wlanSetWapRest_eq_success_iff.mp hret).2
  | traffic t =>
    cases hs
    have hmode := congrArg Card.Setup.InfrastructureMode (Card.setup_handle s.card t)
    refine ⟨hmode.trans h.infrastructure, fun hmedia => ?_, h.success⟩
    by_cases hends : EndsLink s.card t
    · -- the card was not connected, and the end of a link does not connect it
      obtain ⟨hsame, _⟩ := handle_of_endsLink hends
      exact absurd hends (hok (hsame.symm.trans hmedia))
    · rcases handle_of_not_endsLink hends with hlast | ⟨hsame, hlast⟩
      · exact hlast
      · exact hlast.trans (h.connected (hsame.symm.trans hmedia))
  | scanPurpose purpose =>
    cases hs
    exact ⟨h.infrastructure, h.connected, h.success⟩
  | security sec =>
    cases hs
    exact ⟨h.infrastructure, h.connected, h.success⟩
  | commFail fail =>
    cases hs
    exact ⟨h.infrastructure, h.connected, h.success⟩

theorem step_break (h : Inv s) (hbad : ¬ Benign s a) (hs : step s a = some s') : ¬ JoinOk s' := by
  obtain ⟨hmedia, hbad⟩ := Classical.not_imp.mp hbad
  cases a with
  | wlanSetWap dstbssid mem =>
    cases hcall : s.call with
    | some call => simp [step, hcall] at hs
    | none =>
      simp only [Classical.not_imp] at hbad
      have hwap : s.card.newCall.wlanSetWap dstbssid mem = .returned WLAN_STATUS_SUCCESS :=
        (wlanSetWap_eq_success_iff h.infrastructure).mpr ⟨hmedia, hbad⟩
      simp only [step, hcall, hwap] at hs
      cases hs
      exact not_joinOk_returned nofun
  | executed =>
    cases hcall : s.call with
    | none => simp [step, hcall] at hs
    | some call =>
      have hret : s.card.wlanSetWapRest WLAN_STATUS_SUCCESS = WLAN_STATUS_SUCCESS :=
        wlanSetWapRest_eq_success_iff.mpr ⟨rfl, hmedia⟩
      simp only [step, hcall, hret] at hs
      cases hs
      exact not_joinOk_returned (not_exists.mp hbad)
  | traffic t =>
    cases hs
    intro hok
    obtain ⟨hsame, hlast⟩ := handle_of_endsLink (not_not.mp hbad)
    exact hlast (hok.connected (hsame.trans hmedia))
  | scanPurpose purpose => exact absurd trivial hbad
  | security sec => exact absurd trivial hbad
  | commFail fail => exact absurd trivial hbad

end Steps

/-- From the state that `wlan_init_card` leaves, joining is reported as it is exactly as
    long as nothing ends a link that stands. -/
theorem joinOk_throughout_iff (acts : List Act) :
    Throughout step JoinOk start acts ↔ Along step Benign start acts := by
  refine throughout_iff_along (I := Inv) ?_ ?_ ?_ inv_start
  · intro s h
    exact h.joinOk
  · intro s a s' h hok hs
    exact step_keep h hok hs
  · intro s a s' h hbad hs
    exact step_break h hbad hs

/-- An open access point. -/
def openBss : BSSDescriptor := ⟨Vector.replicate 6 1, 0, .Infrastructure, 0, 0⟩

/-- The card joins and loses the link; the flag stays clear, and the next call, which is
    refused, succeeds. -/
theorem refused_again_not_joinOk :
    ¬ Throughout step JoinOk start
      [.security ⟨false, false, .Disabled, .CIPHER_NONE⟩, .scanPurpose .ScanFilter,
        .traffic .command, .traffic (.scanResponse [] (some openBss)),
        .wlanSetWap openBss.MacAddress ⟨true, true, true⟩, .traffic (.associateResponse 0 0),
        .executed, .commFail false, .traffic (.event MACREG_INT_CODE_LINK_LOST),
        .wlanSetWap openBss.MacAddress ⟨true, true, true⟩, .traffic (.associateResponse 0 1),
        .executed] := by
  intro h
  have hok := h.exec rfl
  rcases hok.lost ⟨⟨some .linkLost, false⟩, WLAN_STATUS_SUCCESS, .answered openBss.MacAddress false⟩
    (.tail _ (.head _)) nofun nofun with hflag | hret | ⟨mac, hmac⟩
  · cases hflag
  · exact hret rfl
  · cases hmac

end Join

end Wlan
