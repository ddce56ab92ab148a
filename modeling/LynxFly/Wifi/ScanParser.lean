-- SUMMARY: The parser of scan responses, over any way to reach the items it fills.
import LynxFly.Base.Memory
import LynxFly.Wifi.Constants

/-!
# Parsing a scan response

`WlanparserScanResult` and `InterruptScanResult` (`wlan_scan.c`) as programs over the
description bytes of a response and the items of the result buffer. What the driver prints
is left out.
-/

open Buffers Buffers.Prog

namespace Wlan

namespace ScanParser

/-- The fields of `ScanResultItem` the parser writes. -/
inductive Field where
  | MacAddress
  | SsidLength
  | Ssid
  | Privacy
  | Rssi
  | Channel
  | InfrastructureMode
  | SupportedRates
  | DataRates
  | Security
  deriving DecidableEq

/-- The elements of an array; any other field is one cell, as all its values are bytes. -/
def Field.size : Field → ℕ
  | .MacAddress => ETH_ALEN
  | .Ssid => WLAN_MAX_SSID_LENGTH
  | .SupportedRates | .DataRates => WLAN_SUPPORTED_RATES
  | _ => 1

/-- How the parser reaches its data. -/
structure Store (Buf : Type) where
  /-- `BssDescAndTlvBuffer` and whatever follows it. -/
  description : Buf
  /-- The address space at large. -/
  memory : Buf
  /-- `rt_memcpy` of the `n` bytes of the description at `ptr` to a field of item `k`. -/
  memcpy (k : ℕ) (f : Field) (ptr n : ℕ) : Prog Buf UInt8 Unit
  /-- An assignment to a field of item `k`. -/
  assign (k : ℕ) (f : Field) (v : UInt8) : Prog Buf UInt8 Unit
  /-- `Ssid[i] = 0`, in item `k`. -/
  terminate (k i : ℕ) : Prog Buf UInt8 Unit

/-- `HostCmd_DS_802_11_SCAN_RSP` without its buffer. -/
structure ScanRsp where
  BSSDescriptSize : UInt16
  NumberOfSets : UInt8

/-- The result buffer, as `WlanCard` has it. -/
structure ResultBuffer where
  ScanResultInfo : Option ℕ
  ScanResulMuxsize : UInt32
  ScanResultcount : UInt32

/-- What one beacon hands on to the next. The bytes left never get below zero. -/
structure State where
  pBeaconInfo : ℕ
  bytesLeft : ℕ
  ScanResultcount : UInt32

/-- `*pBeaconInfo += *bytesLeft; *bytesLeft = 0`. -/
def State.skip (s : State) : State := ⟨s.pBeaconInfo + s.bytesLeft, 0, s.ScanResultcount⟩

def State.advance (s : State) (n : ℕ) : State :=
  ⟨s.pBeaconInfo + n, s.bytesLeft - n, s.ScanResultcount⟩

/-- `ScanResultcount++`. -/
def State.count (s : State) : State := ⟨s.pBeaconInfo, s.bytesLeft, s.ScanResultcount + 1⟩

/-! ## The code -/

/-- `elemLen<WLAN_MAX_SSID_LENGTH?elemLen:WLAN_MAX_SSID_LENGTH`. -/
def ssidLength (elemLen : UInt8) : UInt8 :=
  if elemLen.toNat < WLAN_MAX_SSID_LENGTH then elemLen else 32

/-- The flags of `InterruptScanResult` that choose `Security`. -/
structure Flags where
  wpaflag : Bool
  wpa2flag : Bool

def Flags.security (flags : Flags) : UInt8 :=
  if flags.wpa2flag then 3 else if flags.wpaflag then 2 else 1

/-- The high half of the pointer `pCap`, which is never set, when the beacon at this
    position is parsed. -/
abbrev Stack := ℕ → ℕ

/-- `(itemcount+1)*sizeof(ScanResultItem) <= ScanResulMuxsize`, in `u32`. -/
def HasItem (sizeofItem : ℕ) (buffer : ResultBuffer) (itemcount : UInt32) : Prop :=
  (itemcount.toNat + 1) * sizeofItem % 2 ^ 32 ≤ buffer.ScanResulMuxsize.toNat

instance (sizeofItem : ℕ) (buffer : ResultBuffer) (itemcount : UInt32) :
    Decidable (HasItem sizeofItem buffer itemcount) :=
  inferInstanceAs (Decidable (_ ≤ _))

section Code

variable {Buf : Type} (S : Store Buf)

/-- `*ptr`, and `ptr` is this far into the description. -/
def byte (ptr : ℕ) : Prog Buf UInt8 UInt8 := rd S.description ptr

/-- `memcmp` with `wpa_oui`. -/
def isWpaOui (ptr : ℕ) : Prog Buf UInt8 Bool := do
  let b0 ← byte S ptr
  let b1 ← byte S (ptr + 1)
  let b2 ← byte S (ptr + 2)
  let b3 ← byte S (ptr + 3)
  pure (b0 = 0x00 ∧ b1 = 0x50 ∧ b2 = 0xf2 ∧ b3 = 0x01)

/-- The `switch` on one information element, at `ptr`. -/
def switchElem (k ptr : ℕ) (elemID elemLen : UInt8) (flags : Flags) : Prog Buf UInt8 Flags :=
  if elemID = SSID then do
    S.assign k .SsidLength (ssidLength elemLen)
    S.memcpy k .Ssid (ptr + 2) (ssidLength elemLen).toNat
    S.terminate k (ssidLength elemLen).toNat
    pure flags
  else if elemID = SUPPORTED_RATES then do
    S.memcpy k .DataRates (ptr + 2) elemLen.toNat
    S.memcpy k .SupportedRates (ptr + 2) elemLen.toNat
    pure flags
  else if elemID = DS_PARAM_SET then do
    S.assign k .Channel (← byte S (ptr + 2))
    pure flags
  else if elemID = VENDOR_SPECIFIC_221 then do
    let wpa ← isWpaOui S (ptr + 2)
    pure (if wpa then ⟨true, flags.wpa2flag⟩ else flags)
  else if elemID = RSN_IE then pure ⟨flags.wpaflag, true⟩
  else pure flags

/-- The loop over the information elements. -/
def variableIE (k ptr : ℕ) (bytesLeftForCurrentBeacon : ℤ) (flags : Flags) :
    Prog Buf UInt8 Unit :=
  if 2 ≤ bytesLeftForCurrentBeacon then do
    let elemID ← byte S ptr
    let elemLen ← byte S (ptr + 1)
    -- the length is compared without the two bytes just read
    if bytesLeftForCurrentBeacon < elemLen.toNat then pure ()
    else do
      let flags ← switchElem S k ptr elemID elemLen flags
      S.assign k .Security flags.security
      variableIE k (ptr + (elemLen.toNat + 2)) (bytesLeftForCurrentBeacon - (elemLen.toNat + 2))
        flags
  else pure ()
termination_by bytesLeftForCurrentBeacon.toNat
decreasing_by omega

/-- The fields of fixed size, behind the address of the beacon at `ptr`. -/
def fixedFields (stack : Stack) (k ptr : ℕ) : Prog Buf UInt8 Unit := do
  S.assign k .Rssi (← byte S (ptr + 6))
  -- `rt_memcpy(&pCap, pCurrentPtr, 2)` sets half of a pointer, which is then followed
  let lo ← byte S (ptr + 17)
  let hi ← byte S (ptr + 18)
  let pCap : ℕ := 65536 * stack ptr + 256 * hi.toNat + lo.toNat
  let privacy ← rd S.memory pCap
  S.assign k .Privacy (if privacy.toNat.testBit 4 then 1 else 0)
  let ibss ← rd S.memory pCap
  S.assign k .InfrastructureMode (if ibss.toNat.testBit 1 then 0 else 1)

/-- `InterruptScanResult` from `pCurrentPtr = *pBeaconInfo` on: it parses the beacon of
    `beaconSize` bytes at `ptr` into item `k`. -/
def parzeBSSDescription (stack : Stack) (k ptr beaconSize : ℕ) : Prog Buf UInt8 ℤ := do
  S.memcpy k .MacAddress ptr ETH_ALEN
  if (beaconSize : ℤ) - ETH_ALEN < 12 then pure WLAN_STATUS_FAILURE
  else do
    fixedFields S stack k ptr
    variableIE S k (ptr + 19) ((beaconSize : ℤ) - 19) ⟨false, false⟩
    pure WLAN_STATUS_SUCCESS

/-- The declared size, taken off the description unless fewer than two bytes are left. -/
def beaconSize (s : State) : Prog Buf UInt8 (ℕ × State) :=
  if 2 ≤ s.bytesLeft then do
    let lo ← byte S s.pBeaconInfo
    let hi ← byte S (s.pBeaconInfo + 1)
    pure (256 * hi.toNat + lo.toNat, s.advance 2)
  else pure (0, s)

variable (sizeofItem : ℕ) (buffer : ResultBuffer) (stack : Stack) (rsp : ScanRsp)

/-- `InterruptScanResult`. -/
def interruptScanResult (s : State) : Prog Buf UInt8 (ℤ × State) := do
  let (beaconSize, s) ← beaconSize S s
  if beaconSize = 0 ∨ s.bytesLeft < beaconSize ∨ buffer.ScanResultInfo = none then
    pure (WLAN_STATUS_FAILURE, s.skip)
  else if HasItem sizeofItem buffer s.ScanResultcount then do
    let ret ← parzeBSSDescription S stack s.ScanResultcount.toNat s.pBeaconInfo beaconSize
    let s := s.advance beaconSize
    if ret = WLAN_STATUS_SUCCESS then pure (ret, s.count)
    else pure (ret, s)
  else pure (WLAN_STATUS_FAILURE, s.skip)

/-- `for (idx = 0; idx < n && bytesLeft; idx++)`. -/
def beacons : ℕ → Prog Buf UInt8 State
  | 0 => pure ⟨0, rsp.BSSDescriptSize.toNat, buffer.ScanResultcount⟩
  | n + 1 => do
    let s ← beacons n
    if s.bytesLeft = 0 then pure s
    else do
      let (_, s) ← interruptScanResult S sizeofItem buffer stack s
      pure s

/-- `WlanparserScanResult`. -/
def wlanparserScanResult : Prog Buf UInt8 (ℤ × ℕ) := do
  if MRVDRV_MAX_BSSID_LIST < rsp.NumberOfSets.toNat then
    pure (WLAN_STATUS_FAILURE, buffer.ScanResultcount.toNat)
  else do
    let s ← beacons S sizeofItem buffer stack rsp rsp.NumberOfSets.toNat
    pure (WLAN_STATUS_SUCCESS, s.ScanResultcount.toNat)

end Code

end ScanParser

end Wlan
