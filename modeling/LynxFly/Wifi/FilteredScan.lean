-- SUMMARY: The filtered scan: what of the descriptor it installs is due to the response.
import LynxFly.Base.Stamps
import LynxFly.Wifi.Join

/-!
# The scan table

`wlan_ret_802_11_scan` parses the one description of a response into `scanbuffer`, with
`InterpretBSSDescriptionWithIE` (`wlan_scan.c`), and makes it the `ScanTable`. The buffer is
the same in every call, and what the description does not set is what it held before.
-/

open Buffers Buffers.Prog

namespace Wlan

namespace FilteredScan

abbrev COUNTRY_CODE_LEN : ℕ := 3
abbrev IEEE_MAX_IE_SIZE : ℕ := 256

abbrev sizeofFhParamSet : ℕ := 8
abbrev sizeofDsParamSet : ℕ := 3
abbrev sizeofCfParamSet : ℕ := 8
abbrev sizeofIbssParamSet : ℕ := 4
abbrev sizeofWmmParameter : ℕ := 26
abbrev sizeofWmmInfo : ℕ := 9

/-- The fields of `BSSDescriptor_t` the parser writes. -/
inductive Field where
  | MacAddress
  | SsidLength
  | Ssid
  | Privacy
  | Rssi
  | Channel
  | BeaconPeriod
  | ATIMWindow
  | ERPFlags
  | NetworkTypeInUse
  | InfrastructureMode
  | SupportedRates
  | wmmIE
  | extra_ie
  | TimeStamp
  | PhyParamSet
  | SsParamSet
  | Cap
  | DataRates
  | networkTSF
  | CountryInfo
  | wpaIE
  | rsnIE
  | pBeaconBuf
  | beaconBufSize
  deriving DecidableEq

/-- What the compiler and the linker decide. -/
structure Layout where
  offset : Field → ℕ
  /-- The first field. -/
  offset_MacAddress : offset .MacAddress = 0
  /-- The bytes of an enumeration behind the first. -/
  enumPad : ℕ
  /-- The address of `beaconbuf`. -/
  beaconbuf : Vector UInt8 4

/-- The bytes of a field that joining reads. -/
def Field.size (L : Layout) : Field → ℕ
  | .MacAddress => ETH_ALEN
  | .Ssid => WLAN_MAX_SSID_LENGTH
  | .SupportedRates | .DataRates => WLAN_SUPPORTED_RATES
  | .wmmIE => sizeofWmmParameter
  | .PhyParamSet => sizeofFhParamSet
  | .SsParamSet => sizeofCfParamSet
  | .Cap | .BeaconPeriod => 2
  | .ERPFlags => 1
  | .TimeStamp | .networkTSF => 8
  | .wpaIE | .rsnIE => IEEE_MAX_IE_SIZE
  | .CountryInfo => 254
  | .NetworkTypeInUse | .InfrastructureMode => L.enumPad + 1
  | _ => 4

inductive Buf where
  /-- `BssDescAndTlvBuffer`, and whatever follows it. -/
  | description
  | scanbuffer
  /-- `beaconbuf`, and the memory behind it. -/
  | beaconbuf
  /-- The descriptor `wlan_init_card` allocates. -/
  | initial
  deriving DecidableEq

/-- A response to a scan: all that its buffer holds. -/
structure Response where
  NumberOfSets : UInt8
  BSSDescriptSize : UInt16
  BssDescAndTlvBuffer : ℤ → UInt8
  /-- The time stamp of the TLV `wlan_ret_802_11_scan_get_tlv_ptrs` finds. -/
  tsf : Option (Vector UInt8 8)

/-- What `ScanTable` points to. -/
inductive Table where
  | initial
  | scanbuffer

def Table.buf : Table → Buf
  | initial => .initial
  | scanbuffer => .scanbuffer

/-- The buffers, and which of them `ScanTable` points to. -/
structure Memory where
  cells : Cells Buf UInt8
  ScanTable : Table

abbrev FH_PARAM_SET : UInt8 := 2
abbrev CF_PARAM_SET : UInt8 := 4
abbrev IBSS_PARAM_SET : UInt8 := 6
abbrev COUNTRY_INFO : UInt8 := 7
abbrev ERP_INFO : UInt8 := 42
abbrev EXTENDED_SUPPORTED_RATES : UInt8 := 50
abbrev EXTRA_IE : UInt8 := 133

/-! ## The code -/

section Code

variable (L : Layout)

/-- `*ptr`, and `ptr` is this far into the description. -/
def byte (ptr : ℕ) : Prog Buf UInt8 UInt8 := rd .description ptr

/-- `rt_memcpy` of `n` bytes of the description to byte `k` of a field. -/
def memcpy (f : Field) (k ptr n : ℕ) : Prog Buf UInt8 Unit :=
  copy .scanbuffer (L.offset f + k) .description ptr n

/-- An assignment to a field, from its byte `k` on. -/
def assign (f : Field) (k : ℕ) (bytes : List UInt8) : Prog Buf UInt8 Unit :=
  store .scanbuffer (L.offset f + k) bytes

/-- A byte as an `int` or `u32`. -/
def word (v : UInt8) : List UInt8 := [v, 0, 0, 0]

def enumBytes (v : UInt8) : List UInt8 := v :: List.replicate L.enumPad 0

/-- `rt_memcmp` with `wpa_oui` or `wmm_oui`, which end with this byte. -/
def isOui (ptr : ℕ) (OuiType : UInt8) : Prog Buf UInt8 Bool := do
  let b0 ← byte ptr
  let b1 ← byte (ptr + 1)
  let b2 ← byte (ptr + 2)
  let b3 ← byte (ptr + 3)
  pure (b0 = 0x00 ∧ b1 = 0x50 ∧ b2 = 0xf2 ∧ b3 = OuiType)

/-- How many bytes of an `EXTENDED_SUPPORTED_RATES` are copied, as a `u8`. -/
def bytesToCopy (elemLen rateSize : ℕ) : ℕ :=
  if elemLen + rateSize > WLAN_SUPPORTED_RATES then
    (2 ^ 8 + WLAN_SUPPORTED_RATES - rateSize) % 2 ^ 8
  else elemLen

/-- How the `switch` ends. -/
inductive Switched where
  /-- It returns `WLAN_STATUS_FAILURE`. -/
  | failure
  /-- The loop goes on. With `foundDataRateIE`, `rateSize` is given. -/
  | next (rateSize : Option ℕ)

/-- `MIN(totalIeLen, sizeof(..))`. -/
def copied (elemLen : ℕ) : ℕ := min (elemLen + 2) IEEE_MAX_IE_SIZE

/-- The `switch` on one information element, at `ptr`. -/
def switchElem (ptr : ℕ) (elemID : UInt8) (elemLen : ℕ) (rateSize : Option ℕ) :
    Prog Buf UInt8 Switched :=
  if elemID = SSID then do
    assign L .SsidLength 0 (word (UInt8.ofNat elemLen))
    memcpy L .Ssid 0 (ptr + 2) elemLen
    pure (.next rateSize)
  else if elemID = SUPPORTED_RATES then do
    memcpy L .DataRates 0 (ptr + 2) elemLen
    memcpy L .SupportedRates 0 (ptr + 2) elemLen
    pure (.next (some elemLen))
  else if elemID = EXTRA_IE then do
    assign L .extra_ie 0 (word 1)
    pure (.next rateSize)
  else if elemID = FH_PARAM_SET then do
    assign L .NetworkTypeInUse 0 (enumBytes L 0)
    memcpy L .PhyParamSet 0 ptr sizeofFhParamSet
    pure (.next rateSize)
  else if elemID = DS_PARAM_SET then do
    assign L .NetworkTypeInUse 0 (enumBytes L 1)
    let CurrentChan ← byte (ptr + 2)
    assign L .Channel 0 (word CurrentChan)
    memcpy L .PhyParamSet 0 ptr sizeofDsParamSet
    pure (.next rateSize)
  else if elemID = CF_PARAM_SET then do
    memcpy L .SsParamSet 0 ptr sizeofCfParamSet
    pure (.next rateSize)
  else if elemID = IBSS_PARAM_SET then do
    let lo ← byte (ptr + 2)
    let hi ← byte (ptr + 3)
    assign L .ATIMWindow 0 [lo, hi, 0, 0]
    memcpy L .SsParamSet 0 ptr sizeofIbssParamSet
    pure (.next rateSize)
  else if elemID = COUNTRY_INFO then
    if elemLen < COUNTRY_CODE_LEN ∨ elemLen > 254 then pure .failure
    else do
      memcpy L .CountryInfo 0 ptr (elemLen + 2)
      pure (.next rateSize)
  else if elemID = ERP_INFO then do
    let ERPFlags ← byte (ptr + 2)
    assign L .ERPFlags 0 [ERPFlags]
    pure (.next rateSize)
  else if elemID = EXTENDED_SUPPORTED_RATES then
    match rateSize with
    | none => pure (.next none)
    | some rateSize => do
      memcpy L .DataRates rateSize (ptr + 2) (bytesToCopy elemLen rateSize)
      memcpy L .SupportedRates rateSize (ptr + 2) (bytesToCopy elemLen rateSize)
      pure (.next (some rateSize))
  else if elemID = VENDOR_SPECIFIC_221 then do
    let wpa ← isOui (ptr + 2) 0x01
    if wpa then do
      assign L .wpaIE 1 [UInt8.ofNat (copied elemLen - 2)]
      memcpy L .wpaIE 0 ptr (copied elemLen)
      pure (.next rateSize)
    else do
      let wmm ← isOui (ptr + 2) 0x02
      if wmm ∧ (elemLen + 2 = sizeofWmmParameter ∨ elemLen + 2 = sizeofWmmInfo) then do
        memcpy L .wmmIE 0 ptr (elemLen + 2)
        pure (.next rateSize)
      else pure (.next rateSize)
  else if elemID = RSN_IE then do
    assign L .rsnIE 1 [UInt8.ofNat (copied elemLen - 2)]
    memcpy L .rsnIE 0 ptr (copied elemLen)
    pure (.next rateSize)
  else pure (.next rateSize)

/-- The loop over the information elements. -/
def variableIE (ptr : ℕ) (bytesLeftForCurrentBeacon : ℤ) (rateSize : Option ℕ) :
    Prog Buf UInt8 ℤ :=
  if 2 ≤ bytesLeftForCurrentBeacon then do
    let elemID ← byte ptr
    let elemLen ← byte (ptr + 1)
    -- the length is compared without the two bytes just read
    if bytesLeftForCurrentBeacon < elemLen.toNat then pure WLAN_STATUS_SUCCESS
    else do
      match ← switchElem L ptr elemID elemLen.toNat rateSize with
      | .failure => pure WLAN_STATUS_FAILURE
      | .next rateSize =>
        variableIE (ptr + (elemLen.toNat + 2)) (bytesLeftForCurrentBeacon - (elemLen.toNat + 2))
          rateSize
  else pure WLAN_STATUS_SUCCESS
termination_by bytesLeftForCurrentBeacon.toNat
decreasing_by omega

/-- A `u32` in memory. -/
def u32Bytes (n : ℕ) : List UInt8 :=
  [UInt8.ofNat n, UInt8.ofNat (n / 2 ^ 8), UInt8.ofNat (n / 2 ^ 16), UInt8.ofNat (n / 2 ^ 24)]

/-- The fields of fixed size, behind the address of the beacon at `ptr`. -/
def fixedFields (ptr beaconSize : ℕ) : Prog Buf UInt8 Unit := do
  let Rssi ← byte (ptr + 6)
  assign L .Rssi 0 (word Rssi)
  copy .beaconbuf 0 .description (ptr + 7) (beaconSize - 7)
  assign L .pBeaconBuf 0 L.beaconbuf.toList
  assign L .beaconBufSize 0 (u32Bytes (beaconSize - 7))
  memcpy L .TimeStamp 0 (ptr + 7) 8
  memcpy L .BeaconPeriod 0 (ptr + 15) 2
  let pCap ← byte (ptr + 17)
  memcpy L .Cap 0 (ptr + 17) 2
  assign L .Privacy 0 (word (if pCap.toNat.testBit 4 then 1 else 0))
  assign L .InfrastructureMode 0 (enumBytes L (if pCap.toNat.testBit 1 then 0 else 1))

/-- The declared size, unless the description is too short for it. -/
def beaconSize (bytesLeft : ℕ) : Prog Buf UInt8 ℕ :=
  if 2 ≤ bytesLeft then do
    let lo ← byte 0
    let hi ← byte 1
    pure (256 * hi.toNat + lo.toNat)
  else pure 0

/-- `InterpretBSSDescriptionWithIE`. -/
def interpretBSSDescriptionWithIE (bytesLeft : ℕ) : Prog Buf UInt8 ℤ := do
  let beaconSize ← beaconSize bytesLeft
  if beaconSize = 0 ∨ bytesLeft - 2 < beaconSize then pure WLAN_STATUS_FAILURE
  else do
    memcpy L .MacAddress 0 2 ETH_ALEN
    if (beaconSize : ℤ) - ETH_ALEN < 12 then pure WLAN_STATUS_FAILURE
    else do
      fixedFields L 2 beaconSize
      variableIE L 21 ((beaconSize : ℤ) - 19) none

/-- The entry `newBssEntry`, which is cleared as far as a pointer goes. -/
def newBssEntry (resp : Response) : Prog Buf UInt8 ℤ := do
  store .scanbuffer 0 [0, 0, 0, 0]
  let ret ← interpretBSSDescriptionWithIE L resp.BSSDescriptSize.toNat
  if ret = WLAN_STATUS_SUCCESS then
    match resp.tsf with
    | some tsf => do
      assign L .networkTSF 0 tsf.toList
      pure ret
    | none => pure ret
  else pure ret

/-- The memory, with the response in its buffer. -/
def received (c : Cells Buf UInt8) (resp : Response) : Cells Buf UInt8 := fun b =>
  if b = .description then resp.BssDescAndTlvBuffer else c b

/-- `wlan_ret_802_11_scan`. -/
def wlanRet80211Scan (card : Memory) (resp : Response) : Memory × ℤ :=
  let cells := received card.cells resp
  if resp.NumberOfSets.toNat > MRVDRV_MAX_BSSID_LIST then
    (⟨cells, card.ScanTable⟩, WLAN_STATUS_FAILURE)
  else if resp.NumberOfSets = 1 ∧ resp.BSSDescriptSize ≠ 0 then
    if (newBssEntry L resp).result cells = WLAN_STATUS_SUCCESS then
      (⟨(newBssEntry L resp).exec cells, .scanbuffer⟩, WLAN_STATUS_SUCCESS)
    else (⟨(newBssEntry L resp).exec cells, card.ScanTable⟩, WLAN_STATUS_SUCCESS)
  else (⟨cells, card.ScanTable⟩, WLAN_STATUS_SUCCESS)

end Code

/-! ## What a response rewrites -/

/-- `size` bytes of a field, from its byte `start` on. -/
structure Span where
  field : Field
  start : ℕ
  size : ℕ

/-- An information element of the description, with its body behind two bytes at `ptr`. -/
structure Element where
  ptr : ℕ
  elemID : UInt8
  elemLen : ℕ

section Rewritten

variable (L : Layout) (d : ℤ → UInt8)

def Span.cells (s : Span) : Set (Buf × ℤ) :=
  stretch .scanbuffer (L.offset s.field + s.start) s.size

def cells : List Span → Set (Buf × ℤ)
  | [] => ∅
  | s :: spans => s.cells L ∪ cells spans

/-- The four bytes at `ptr` are the OUI of WPA or WMM. -/
def ouiAt (ptr : ℕ) (OuiType : UInt8) : Bool :=
  d ((ptr : ℕ) : ℤ) = 0x00 ∧ d ((ptr + 1 : ℕ) : ℤ) = 0x50 ∧ d ((ptr + 2 : ℕ) : ℤ) = 0xf2 ∧
    d ((ptr + 3 : ℕ) : ℤ) = OuiType

/-- The elements the loop gets to. -/
def elements (ptr : ℕ) (left : ℤ) : List Element :=
  if 2 ≤ left then
    if left < (d ((ptr + 1 : ℕ) : ℤ)).toNat then []
    else
      ⟨ptr, d (ptr : ℤ), (d ((ptr + 1 : ℕ) : ℤ)).toNat⟩ ::
        elements (ptr + ((d ((ptr + 1 : ℕ) : ℤ)).toNat + 2))
          (left - ((d ((ptr + 1 : ℕ) : ℤ)).toNat + 2))
  else []
termination_by left.toNat
decreasing_by omega

namespace Element

/-- The one element that is refused. -/
def Malformed (e : Element) : Prop :=
  e.elemID = COUNTRY_INFO ∧ (e.elemLen < COUNTRY_CODE_LEN ∨ e.elemLen > 254)

instance (e : Element) : Decidable e.Malformed := inferInstanceAs (Decidable (_ ∧ _))

/-- The length of the last rates element, if any. -/
def rateSize (e : Element) (rateSize : Option ℕ) : Option ℕ :=
  if e.elemID = SUPPORTED_RATES then some e.elemLen else rateSize

/-- What the element rewrites. -/
def spans (e : Element) (rateSize : Option ℕ) : List Span :=
  if e.elemID = SSID then [⟨.SsidLength, 0, 4⟩, ⟨.Ssid, 0, e.elemLen⟩]
  else if e.elemID = SUPPORTED_RATES then
    [⟨.DataRates, 0, e.elemLen⟩, ⟨.SupportedRates, 0, e.elemLen⟩]
  else if e.elemID = EXTRA_IE then [⟨.extra_ie, 0, 4⟩]
  else if e.elemID = FH_PARAM_SET then
    [⟨.NetworkTypeInUse, 0, L.enumPad + 1⟩, ⟨.PhyParamSet, 0, sizeofFhParamSet⟩]
  else if e.elemID = DS_PARAM_SET then
    [⟨.NetworkTypeInUse, 0, L.enumPad + 1⟩, ⟨.Channel, 0, 4⟩,
      ⟨.PhyParamSet, 0, sizeofDsParamSet⟩]
  else if e.elemID = CF_PARAM_SET then [⟨.SsParamSet, 0, sizeofCfParamSet⟩]
  else if e.elemID = IBSS_PARAM_SET then
    [⟨.ATIMWindow, 0, 4⟩, ⟨.SsParamSet, 0, sizeofIbssParamSet⟩]
  else if e.elemID = COUNTRY_INFO then
    if e.elemLen < COUNTRY_CODE_LEN ∨ e.elemLen > 254 then []
    else [⟨.CountryInfo, 0, e.elemLen + 2⟩]
  else if e.elemID = ERP_INFO then [⟨.ERPFlags, 0, 1⟩]
  else if e.elemID = EXTENDED_SUPPORTED_RATES then
    match rateSize with
    | none => []
    | some rateSize =>
      [⟨.DataRates, rateSize, bytesToCopy e.elemLen rateSize⟩,
        ⟨.SupportedRates, rateSize, bytesToCopy e.elemLen rateSize⟩]
  else if e.elemID = VENDOR_SPECIFIC_221 then
    if ouiAt d (e.ptr + 2) 0x01 then [⟨.wpaIE, 1, 1⟩, ⟨.wpaIE, 0, copied e.elemLen⟩]
    else if ouiAt d (e.ptr + 2) 0x02 ∧
        (e.elemLen + 2 = sizeofWmmParameter ∨ e.elemLen + 2 = sizeofWmmInfo) then
      [⟨.wmmIE, 0, e.elemLen + 2⟩]
    else []
  else if e.elemID = RSN_IE then [⟨.rsnIE, 1, 1⟩, ⟨.rsnIE, 0, copied e.elemLen⟩]
  else []

end Element

/-- What the elements rewrite, up to one that is refused. -/
def elementSpans (rateSize : Option ℕ) : List Element → List Span
  | [] => []
  | e :: es =>
    e.spans L d rateSize ++ if e.Malformed then [] else elementSpans (e.rateSize rateSize) es

end Rewritten

namespace Response

variable (L : Layout) (resp : Response)

/-- The declared size of the beacon. -/
def beaconSize : ℕ :=
  if 2 ≤ resp.BSSDescriptSize.toNat then
    256 * (resp.BssDescAndTlvBuffer 1).toNat + (resp.BssDescAndTlvBuffer 0).toNat
  else 0

def elements : List Element :=
  FilteredScan.elements resp.BssDescAndTlvBuffer 21 ((resp.beaconSize : ℤ) - 19)

/-- The description is there, with the fields of fixed size. -/
def Complete : Prop :=
  18 ≤ resp.beaconSize ∧ resp.beaconSize ≤ resp.BSSDescriptSize.toNat - 2

/-- The response has one description, and that parses. -/
structure Parses : Prop where
  sets : resp.NumberOfSets = 1
  complete : resp.Complete
  wellFormed : ∀ e ∈ resp.elements, ¬ e.Malformed

/-- What every description that parses rewrites. -/
def fixedSpans : List Span :=
  [⟨.Rssi, 0, 4⟩, ⟨.pBeaconBuf, 0, 4⟩, ⟨.beaconBufSize, 0, 4⟩, ⟨.TimeStamp, 0, 8⟩,
    ⟨.BeaconPeriod, 0, 2⟩, ⟨.Cap, 0, 2⟩, ⟨.Privacy, 0, 4⟩,
    ⟨.InfrastructureMode, 0, L.enumPad + 1⟩]

/-- What this one rewrites. -/
def spans : List Span :=
  [⟨.MacAddress, 0, 4⟩, ⟨.MacAddress, 0, ETH_ALEN⟩] ++ (fixedSpans L ++
    (elementSpans L resp.BssDescAndTlvBuffer none resp.elements ++
      if resp.tsf.isSome then [⟨.networkTSF, 0, 8⟩] else []))

end Response

/-! ## The parser stamps what it rewrites -/

section Parser

variable {L : Layout} {d : ℤ → UInt8}

theorem length_enumBytes (v : UInt8) : (enumBytes L v).length = L.enumPad + 1 := by
  rw [enumBytes, List.length_cons, List.length_replicate]

namespace Element

end Element

end Parser

section Entry

variable {L : Layout} {resp : Response}

end Entry

/-! ## The descriptor depends on the response only -/

section Descriptor

variable (L : Layout)

/-- The card after a response. -/
def after (card : Memory) (resp : Response) : Memory := (wlanRet80211Scan L card resp).1

namespace Memory

variable (card : Memory)

/-- The descriptor `ScanTable` points to. -/
def table : ℤ → UInt8 := card.cells card.ScanTable.buf

/-- A field of it. -/
def field (f : Field) : List UInt8 := slice card.cells card.ScanTable.buf (L.offset f) (f.size L)

end Memory

/-- A number in memory. -/
def number : List UInt8 → ℕ
  | [] => 0
  | b :: bs => b.toNat + 256 * number bs

def infrastructure : ℕ → NetworkInfrastructure
  | 0 => .IBSS
  | 1 => .Infrastructure
  | _ => .AutoUnknown

end Descriptor

section ResponseOnly

variable {L : Layout} {resp : Response} {card card' : Memory}

instance nontrivialUInt8 : Nontrivial UInt8 := ⟨0, 1, by decide⟩

end ResponseOnly

/-! A network without security, after one with WPA -/

section StaleWpa

/-- A response with one description, of these elements. -/
def response (size : UInt8) (elements : List UInt8) : Response where
  NumberOfSets := 1
  BSSDescriptSize := size.toUInt16 + 2
  BssDescAndTlvBuffer i :=
    ([size, 0, 2, 2, 2, 2, 2, 2, 60, 0, 0, 0, 0, 0, 0, 0, 0, 100, 0, 1, 0] ++ elements).getD
      i.toNat 0
  tsf := none

def openResponse : Response := response 19 []
end StaleWpa

end FilteredScan

end Wlan
