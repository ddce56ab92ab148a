-- SUMMARY: SendSpecificBSSIDScan and SendScanToGetAPInfo as transactions on the card's scan state.
import LynxFly.Base.Interleaving
import LynxFly.Wifi.Card

/-!
# Scan requests

`SendSpecificBSSIDScan` and `SendScanToGetAPInfo` (`wlan_scan.c`) share the purpose flag
by which `wlan_process_rx_command` chooses a parser for each response. What the
receiving thread meets during a request is an argument.
-/

open Interleaving

namespace Wlan

namespace Card

/-- `wlan_scan_networks` as far as it concerns the card: it sends its commands. -/
def wlanScanNetworks (card : Card) (during : List Traffic) : Card := card.handleAll during

/-- `SendSpecificBSSIDScan`. -/
def sendSpecificBSSIDScan (card : Card) (bssid : Option MacAddress) (ssid : Option CString)
    (during : List Traffic) : ℤ × Card :=
  if bssid.isNone ∧ ssid.isNone then (WLAN_STATUS_FAILURE, card)
  else if card.ScanPurpose = .ScanIdle then
    let card := { card with ScanPurpose := .ScanFilter }
    let card := card.wlanScanNetworks during
    (WLAN_STATUS_SUCCESS, { card with ScanPurpose := .ScanMultichs })
  else (WLAN_STATUS_FAILURE, card)

/-- `SendScanToGetAPInfo`. -/
def sendScanToGetAPInfo (card : Card) (buf : Option ℕ) (buflen : ℤ) (during : List Traffic) :
    ℤ × Card :=
  if buf.isNone ∨ buflen ≤ 0 then (WLAN_STATUS_FAILURE, card)
  else
    let card := { card with ScanResulMuxsize := buflen.toNat, ScanResultInfo := buf, items := [] }
    if card.ScanPurpose = .ScanIdle then
      let card := { card with ScanPurpose := .ScanMultichs }
      let card := card.wlanScanNetworks during
      (WLAN_STATUS_SUCCESS, { card with ScanPurpose := .ScanIdle })
    else (WLAN_STATUS_FAILURE, card)

end Card

namespace Scan

/-- What a request is a transaction on. -/
structure Fields where
  ScanPurpose : SysScanStatus
  ScanResultInfo : Option ℕ
  ScanResulMuxsize : ℕ
  ScanResultcount : ℕ
  deriving DecidableEq

def fields (card : Card) : Fields :=
  ⟨card.ScanPurpose, card.ScanResultInfo, card.ScanResulMuxsize, card.ScanResultcount⟩

/-- A request that has returned. -/
structure Request where
  before : Fields
  ret : ℤ
  after : Fields

structure State where
  card : Card
  requests : List Request

def start : State := ⟨.wlanInitCard, []⟩

inductive Act where
  | sendSpecificBSSIDScan (bssid : Option MacAddress) (ssid : Option CString)
      (during : List Traffic)
  | sendScanToGetAPInfo (buf : Option ℕ) (buflen : ℤ) (during : List Traffic)
  /-- Between two requests. -/
  | traffic (t : Traffic)

def State.returned (s : State) (r : ℤ × Card) : State :=
  ⟨r.2, s.requests ++ [⟨fields s.card, r.1, fields r.2⟩]⟩

def step (s : State) : Act → Option State
  | .sendSpecificBSSIDScan bssid ssid during =>
    some (s.returned (s.card.sendSpecificBSSIDScan bssid ssid during))
  | .sendScanToGetAPInfo buf buflen during =>
    some (s.returned (s.card.sendScanToGetAPInfo buf buflen during))
  | .traffic t => some { s with card := s.card.handle t }

/-- The request left the card idle, and if it failed, as it was. -/
def Request.Ok (r : Request) : Prop :=
  r.after.ScanPurpose = .ScanIdle ∧ (r.ret ≠ WLAN_STATUS_SUCCESS → r.after = r.before)

def Transactional (s : State) : Prop := ∀ r ∈ s.requests, r.Ok

/-- No specific scan is asked for. -/
def Benign (_ : State) : Act → Prop
  | .sendSpecificBSSIDScan bssid ssid _ => bssid = none ∧ ssid = none
  | _ => True

structure Inv (s : State) : Prop where
  idle : s.card.ScanPurpose = .ScanIdle
  transactional : Transactional s

section Steps

variable {s s' : State} {a : Act}

theorem Inv.returned (h : Inv s) {r : ℤ × Card} (hidle : r.2.ScanPurpose = .ScanIdle)
    (hfail : r.1 ≠ WLAN_STATUS_SUCCESS → r.2 = s.card) : Inv (s.returned r) where
  idle := hidle
  transactional := by
    intro q hq
    rcases List.mem_append.mp hq with hmem | hmem
    · exact h.transactional q hmem
    · rw [List.mem_singleton] at hmem
      subst hmem
      exact ⟨hidle, fun hret => congrArg fields (hfail hret)⟩

/-- Idle cards refuse a request for its arguments only, before anything is stored. -/
theorem sendScanToGetAPInfo_idle {card : Card} (h : card.ScanPurpose = .ScanIdle) (buf : Option ℕ)
    (buflen : ℤ) (during : List Traffic) :
    (card.sendScanToGetAPInfo buf buflen during).2.ScanPurpose = .ScanIdle ∧
    ((card.sendScanToGetAPInfo buf buflen during).1 ≠ WLAN_STATUS_SUCCESS →
      (card.sendScanToGetAPInfo buf buflen during).2 = card) := by
  unfold Card.sendScanToGetAPInfo
  by_cases harg : buf.isNone ∨ buflen ≤ 0
  · rw [if_pos harg]
    exact ⟨h, fun _ => rfl⟩
  · rw [if_neg harg]
    dsimp only
    rw [if_pos h]
    exact ⟨rfl, fun hret => absurd rfl hret⟩

theorem step_keep (h : Inv s) (hok : Benign s a) (hs : step s a = some s') : Inv s' := by
  cases a with
  | sendSpecificBSSIDScan bssid ssid during =>
    obtain ⟨hbssid, hssid⟩ := hok
    subst hbssid hssid
    cases hs
    exact h.returned h.idle fun _ => rfl
  | sendScanToGetAPInfo buf buflen during =>
    cases hs
    obtain ⟨hidle, hfail⟩ := sendScanToGetAPInfo_idle h.idle buf buflen during
    exact h.returned hidle hfail
  | traffic t =>
    cases hs
    have hkeep := congrArg Card.Setup.ScanPurpose (Card.setup_handle s.card t)
    exact ⟨hkeep.trans h.idle, h.transactional⟩

/-- A specific scan that is carried out leaves the purpose of the other kind. -/
theorem step_break (h : Inv s) (hbad : ¬ Benign s a) (hs : step s a = some s') :
    ¬ Transactional s' := by
  cases a with
  | sendSpecificBSSIDScan bssid ssid during =>
    have harg : ¬ (bssid.isNone ∧ ssid.isNone) := by
      rintro ⟨hbssid, hssid⟩
      exact hbad ⟨Option.isNone_iff_eq_none.mp hbssid, Option.isNone_iff_eq_none.mp hssid⟩
    cases hs
    intro hall
    obtain ⟨hidle, _⟩ := hall _ (List.mem_append_right _ (List.mem_singleton.mpr rfl))
    simp only [Card.sendSpecificBSSIDScan, if_neg harg, if_pos h.idle, fields] at hidle
    cases hidle
  | _ => exact absurd trivial hbad

end Steps

/-- From the state that `wlan_init_card` leaves, requests are transactions exactly as
    long as no specific scan is asked for. -/
theorem transactional_throughout_iff (acts : List Act) :
    Throughout step Transactional start acts ↔ Along step Benign start acts := by
  refine throughout_iff_along (I := Inv) ?_ ?_ ?_ ⟨rfl, nofun⟩
  · intro s h
    exact h.transactional
  · intro s a s' h hok hs
    exact step_keep h hok hs
  · intro s a s' h hbad hs
    exact step_break h hbad hs

/-- A specific scan, and a scan for all that is refused because of it, with the buffer
    of its caller in place. -/
theorem specific_scan_not_transactional :
    ¬ Throughout step Transactional start
      [.sendSpecificBSSIDScan (some (Vector.replicate 6 1)) none [.command, .response],
        .sendScanToGetAPInfo (some 4096) 1024 []] := by
  intro h
  have hall := h.exec rfl
  obtain ⟨_, hsame⟩ := hall
    ⟨⟨.ScanMultichs, none, 0, 0⟩, WLAN_STATUS_FAILURE, ⟨.ScanMultichs, some 4096, 1024, 0⟩⟩
    (.tail _ (.head _))
  exact absurd (hsame (by decide)) (by decide)

end Scan

end Wlan
