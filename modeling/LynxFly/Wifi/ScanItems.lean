-- SUMMARY: The items WlanparserScanResult makes of encoded beacons, as they lie in memory.
import LynxFly.Base.Overlay
import LynxFly.Wifi.ScanParser

/-!
# The items of a scan response

`WlanparserScanResult` (`wlan_scan.c`) on the encoding of a list of beacons. An item is one
piece of memory here: a zero written behind the `Ssid` array is a zero in `Privacy`.
-/

open Buffers Buffers.Prog

namespace Wlan

namespace ScanItems

open ScanParser

/-- How the compiler lays out `ScanResultItem`: the fields in their order, and the words
    after `SsidLength` without a gap. -/
structure Layout where
  offset : Field → ℕ
  /-- The bytes of an enumeration behind the first. -/
  enumPad : ℕ
  sizeofItem : ℕ
  ssidLength : offset .MacAddress + ETH_ALEN ≤ offset .SsidLength
  ssid : offset .Ssid = offset .SsidLength + 4
  privacy : offset .Privacy = offset .Ssid + WLAN_MAX_SSID_LENGTH
  rssi : offset .Privacy + 4 ≤ offset .Rssi
  channel : offset .Rssi + 4 ≤ offset .Channel
  infrastructureMode : offset .Channel + 4 ≤ offset .InfrastructureMode
  supportedRates : offset .InfrastructureMode + enumPad + 1 ≤ offset .SupportedRates
  dataRates : offset .SupportedRates + WLAN_SUPPORTED_RATES ≤ offset .DataRates
  security : offset .DataRates + WLAN_SUPPORTED_RATES ≤ offset .Security
  size : offset .Security + enumPad + 1 ≤ sizeofItem

/-- The order, in one piece. -/
theorem Layout.in_order (L : Layout) :
    (L.offset .MacAddress + ETH_ALEN ≤ L.offset .SsidLength ∧
      L.offset .Ssid = L.offset .SsidLength + 4 ∧
      L.offset .Privacy = L.offset .Ssid + WLAN_MAX_SSID_LENGTH ∧
      L.offset .Privacy + 4 ≤ L.offset .Rssi ∧ L.offset .Rssi + 4 ≤ L.offset .Channel) ∧
    L.offset .Channel + 4 ≤ L.offset .InfrastructureMode ∧
    L.offset .InfrastructureMode + L.enumPad + 1 ≤ L.offset .SupportedRates ∧
    L.offset .SupportedRates + WLAN_SUPPORTED_RATES ≤ L.offset .DataRates ∧
    L.offset .DataRates + WLAN_SUPPORTED_RATES ≤ L.offset .Security :=
  ⟨⟨L.ssidLength, L.ssid, L.privacy, L.rssi, L.channel⟩, L.infrastructureMode, L.supportedRates,
    L.dataRates, L.security⟩

inductive Buf where
  /-- `BssDescAndTlvBuffer` and whatever follows it. -/
  | description
  /-- Item `k` of `ScanResultInfo`. -/
  | item (k : ℕ)
  /-- The address space at large. -/
  | memory
  deriving DecidableEq

/-! ## The bytes of an item -/

section Code

variable (L : Layout)

/-- `rt_memcpy` of `n` bytes of the description to a field. -/
def memcpy (k : ℕ) (f : Field) (ptr n : ℕ) : Prog Buf UInt8 Unit :=
  copy (.item k) (L.offset f) .description ptr n

/-- An assignment to a field, from its byte `i` on. -/
def assign (k : ℕ) (f : Field) (i : ℕ) (bytes : List UInt8) : Prog Buf UInt8 Unit :=
  store (.item k) (L.offset f + i) bytes

/-- A byte as a `u32`. -/
def word (v : UInt8) : List UInt8 := [v, 0, 0, 0]

def enumBytes (v : UInt8) : List UInt8 := v :: List.replicate L.enumPad 0

/-- What an assignment of `v` to the field stores. -/
def number (f : Field) (v : UInt8) : List UInt8 :=
  match f with
  | .InfrastructureMode | .Security => enumBytes L v
  | _ => word v

/-- The items, byte by byte. -/
abbrev Layout.store : Store Buf where
  description := .description
  memory := .memory
  memcpy := memcpy L
  assign k f v := assign L k f 0 (number L f v)
  terminate k i := assign L k .Ssid i [0]

end Code

/-- How many bytes of a name are stored. -/
def nameLength (elemLen : ℕ) : ℕ :=
  if elemLen < WLAN_MAX_SSID_LENGTH then elemLen else WLAN_MAX_SSID_LENGTH

/-! ## Encoding -/

/-- An information element. -/
structure Info where
  elemID : UInt8
  data : List UInt8
  length_lt : data.length < 2 ^ 8

/-- A 16-bit number, least significant byte first. -/
def u16Bytes (n : ℕ) : List UInt8 := [UInt8.ofNat n, UInt8.ofNat (n / 2 ^ 8)]

namespace Info

def encode (e : Info) : List UInt8 := e.elemID :: UInt8.ofNat e.data.length :: e.data

def encodeAll (es : List Info) : List UInt8 := es.flatMap encode

end Info

structure Beacon where
  mac : Vector UInt8 6
  rssi : UInt8
  timestamp : Vector UInt8 8
  interval : UInt16
  capability : UInt16
  elements : List Info
  rates : ∀ e ∈ elements, e.elemID = SUPPORTED_RATES → e.data.length ≤ WLAN_SUPPORTED_RATES
  size_lt : 19 + (Info.encodeAll elements).length < 2 ^ 16

namespace Beacon

variable (b : Beacon)

/-- What the declared size counts. -/
def size : ℕ := 19 + (Info.encodeAll b.elements).length

def body : List UInt8 :=
  b.mac.toList ++ ([b.rssi] ++ (b.timestamp.toList ++
    (u16Bytes b.interval.toNat ++ (u16Bytes b.capability.toNat ++ Info.encodeAll b.elements))))

def encode : List UInt8 := u16Bytes b.size ++ b.body

def Privacy : Bool := b.capability.toNat.testBit 4

def Ibss : Bool := b.capability.toNat.testBit 1

end Beacon

/-- A list of beacons that a response has room for. -/
structure Beacons where
  list : List Beacon
  sets_lt : list.length < 2 ^ 8
  size_lt : (list.flatMap Beacon.encode).length < 2 ^ 16

namespace Beacons

variable (bs : Beacons)

def encode : List UInt8 := bs.list.flatMap Beacon.encode

def rsp : ScanRsp := ⟨UInt16.ofNat bs.encode.length, UInt8.ofNat bs.list.length⟩

/-- How many bytes the first `i` beacons take. -/
def offset (i : ℕ) : ℕ := ((bs.list.take i).flatMap Beacon.encode).length

/-- Where the description of beacon `i` starts, behind its size. -/
def start (i : ℕ) : ℕ := bs.offset i + 2

end Beacons

/-! ## What the parser leaves -/

section Stored

variable (L : Layout) (d : ℤ → UInt8)

/-- The four bytes at `ptr` are `wpa_oui`. -/
def wpaAt (ptr : ℕ) : Bool :=
  d (ptr : ℤ) = 0x00 ∧ d ((ptr + 1 : ℕ) : ℤ) = 0x50 ∧ d ((ptr + 2 : ℕ) : ℤ) = 0xf2 ∧
    d ((ptr + 3 : ℕ) : ℤ) = 0x01

namespace Info

/-- The flags after an element at `ptr`. -/
def flags (ptr : ℕ) (e : Info) (flags : Flags) : Flags :=
  if e.elemID = VENDOR_SPECIFIC_221 then
    if wpaAt d (ptr + 2) then ⟨true, flags.wpa2flag⟩ else flags
  else if e.elemID = RSN_IE then ⟨flags.wpaflag, true⟩
  else flags

/-- The item after it. -/
def put (ptr : ℕ) (e : Info) (m : ℤ → UInt8) : ℤ → UInt8 :=
  if e.elemID = SSID then
    let n := nameLength e.data.length
    overlay (overlay (overlay m (L.offset .SsidLength) (word (UInt8.ofNat n))) (L.offset .Ssid)
      (e.data.take n)) (L.offset .Ssid + n) [0]
  else if e.elemID = SUPPORTED_RATES then
    overlay (overlay m (L.offset .DataRates) e.data) (L.offset .SupportedRates) e.data
  else if e.elemID = DS_PARAM_SET then
    overlay m (L.offset .Channel) (word (d ((ptr + 2 : ℕ) : ℤ)))
  else m

end Info

/-- The item after the elements from `ptr` on. -/
def putAll : ℕ → Flags → List Info → (ℤ → UInt8) → ℤ → UInt8
  | _, _, [], m => m
  | ptr, flags, e :: es, m =>
    putAll (ptr + (e.data.length + 2)) (e.flags d ptr flags) es
      (overlay (e.put L d ptr m) (L.offset .Security)
        (enumBytes L (e.flags d ptr flags).security))

namespace Info

/-- The last element with this id. -/
def last (elemID : UInt8) : List Info → Option Info
  | [] => none
  | e :: es => (last elemID es).or (if e.elemID = elemID then some e else none)

/-- An SSID whose terminator lies behind the array. -/
def LongSsid (e : Info) : Prop := e.elemID = SSID ∧ WLAN_MAX_SSID_LENGTH ≤ e.data.length

instance (e : Info) : Decidable e.LongSsid := inferInstanceAs (Decidable (_ ∧ _))

end Info

namespace Info

/-- A vendor element with the WPA OUI. -/
def IsWpa (e : Info) : Prop := e.elemID = VENDOR_SPECIFIC_221 ∧ [0x00, 0x50, 0xf2, 0x01] <+: e.data

instance (e : Info) : Decidable e.IsWpa := inferInstanceAs (Decidable (_ ∧ _))

end Info

/-- Some vendor element from `ptr` on has the WPA OUI in the four bytes behind its header,
    whether these belong to it or not. -/
def ouiSeen : ℕ → List Info → Bool
  | _, [] => false
  | ptr, e :: es =>
    (e.elemID = VENDOR_SPECIFIC_221 ∧ wpaAt d (ptr + 2)) || ouiSeen (ptr + (e.data.length + 2)) es

/-- The flags after all elements from `ptr` on. -/
def flagsAfter : ℕ → Flags → List Info → Flags
  | _, flags, [] => flags
  | ptr, flags, e :: es => flagsAfter (ptr + (e.data.length + 2)) (e.flags d ptr flags) es

end Stored

namespace Beacon

variable (b : Beacon)

def HasRsn : Prop := ∃ e ∈ b.elements, e.elemID = RSN_IE
def HasWpa : Prop := ∃ e ∈ b.elements, e.IsWpa
def HasLongSsid : Prop := ∃ e ∈ b.elements, e.LongSsid

instance : Decidable b.HasRsn := inferInstanceAs (Decidable (∃ e ∈ b.elements, _))
instance : Decidable b.HasWpa := inferInstanceAs (Decidable (∃ e ∈ b.elements, _))
instance : Decidable b.HasLongSsid := inferInstanceAs (Decidable (∃ e ∈ b.elements, _))

/-- `SecurityMode`: `WPA2_PSK`, `WPA_PSK`, `WEP` or `NoSecurity`. -/
def security : UInt8 :=
  if b.HasRsn then 3 else if b.HasWpa then 2 else if b.Privacy then 1 else 0

end Beacon

/-! ## What the items are to be -/

section Spec

variable (L : Layout)

/-- The item is that of the beacon. -/
structure Holds (b : Beacon) (m : ℤ → UInt8) : Prop where
  mac : window m (L.offset .MacAddress) ETH_ALEN = b.mac.toList
  rssi : window m (L.offset .Rssi) 4 = word b.rssi
  channel : ∀ e, Info.last DS_PARAM_SET b.elements = some e →
    ∀ CurrentChan, e.data.head? = some CurrentChan →
      window m (L.offset .Channel) 4 = word CurrentChan
  length : ∀ e, Info.last SSID b.elements = some e →
    window m (L.offset .SsidLength) 4 = word (UInt8.ofNat (nameLength e.data.length))
  ssid : ∀ e, Info.last SSID b.elements = some e →
    window m (L.offset .Ssid) (nameLength e.data.length) = e.data.take WLAN_MAX_SSID_LENGTH
  terminated : ∀ e, Info.last SSID b.elements = some e →
    window m (L.offset .Ssid + nameLength e.data.length) 1 = [0]
  privacy : window m (L.offset .Privacy) 4 = word (if b.Privacy then 1 else 0)
  infrastructureMode : window m (L.offset .InfrastructureMode) (L.enumPad + 1) =
    enumBytes L (if b.Ibss then 0 else 1)
  security : window m (L.offset .Security) (L.enumPad + 1) = enumBytes L b.security

variable (stack : Stack) (buffer : ResultBuffer) (bs : Beacons) (c : Cells Buf UInt8)

/-- The parser makes an item of each beacon, in their order. -/
structure Decodes : Prop where
  status : ((wlanparserScanResult L.store L.sizeofItem buffer stack bs.rsp).result c).1 = WLAN_STATUS_SUCCESS
  count : ((wlanparserScanResult L.store L.sizeofItem buffer stack bs.rsp).result c).2 =
    buffer.ScanResultcount.toNat + bs.list.length
  items : ∀ i (hi : i < bs.list.length), Holds L (bs.list.get ⟨i, hi⟩)
    ((wlanparserScanResult L.store L.sizeofItem buffer stack bs.rsp).exec c (.item (buffer.ScanResultcount.toNat + i)))

/-- When the item that was `m` becomes that of the beacon at `ptr`, and `pCap` points to
    this byte. -/
structure Good (b : Beacon) (d : ℤ → UInt8) (pCap : UInt8) (ptr : ℕ) (m : ℤ → UInt8) : Prop where
  /-- Behind a long SSID, `Privacy` is zero; else it is what `pCap` points to. -/
  privacy : if b.HasLongSsid then b.Privacy = false else pCap.toNat.testBit 4 = b.Privacy
  ibss : pCap.toNat.testBit 1 = b.Ibss
  /-- Without elements, `Security` stays. -/
  noElements : b.elements = [] →
    window m (L.offset .Security) (L.enumPad + 1) = enumBytes L b.security
  /-- Without WPA, it is `WEP`. -/
  elements : b.elements ≠ [] →
    b.HasRsn ∨ b.HasWpa ∨ (b.Privacy = true ∧ ouiSeen d (ptr + 19) b.elements = false)

end Spec

section Parser

variable {L : Layout} {d : ℤ → UInt8} {k ptr : ℕ} {flags : Flags} {c : Cells Buf UInt8}

theorem item_ne (k : ℕ) : Buf.item k ≠ .description := nofun

theorem memory_ne_item (k : ℕ) : Buf.memory ≠ .item k := nofun

/-- A step that sets the item only leaves the description. -/
theorem description_eq {c' : Cells Buf UInt8} (hframe : ∀ a ≠ .item k, c' a = c a)
    (hc : c .description = d) : c' .description = d :=
  (hframe _ (item_ne k).symm).trans hc

theorem memory_eq {c' : Cells Buf UInt8} (hframe : ∀ a ≠ .item k, c' a = c a) :
    c' .memory = c .memory :=
  hframe _ (memory_ne_item k)

theorem nameLength_le (len : ℕ) : nameLength len ≤ WLAN_MAX_SSID_LENGTH := by
  unfold nameLength
  split
  · omega
  · omega

theorem nameLength_le_self (len : ℕ) : nameLength len ≤ len := by
  unfold nameLength
  split
  · omega
  · omega

theorem length_take_nameLength (data : List UInt8) :
    (data.take (nameLength data.length)).length = nameLength data.length :=
  List.length_take_of_le (nameLength_le_self _)

/-- The length that the parser stores. -/
theorem ssidLength_eq {elemLen : UInt8} {n : ℕ} (hlen : elemLen.toNat = n) :
    ssidLength elemLen = UInt8.ofNat (nameLength n) := by
  subst hlen
  unfold ssidLength nameLength
  split
  · exact (UInt8.ofNat_toNat).symm
  · rfl

theorem toNat_ssidLength {elemLen : UInt8} {n : ℕ} (hlen : elemLen.toNat = n) :
    (ssidLength elemLen).toNat = nameLength n := by
  have hle : nameLength n ≤ 32 := nameLength_le n
  rw [ssidLength_eq hlen, UInt8.toNat_ofNat', Nat.mod_eq_of_lt (by omega)]

/-- Part of what is seen. -/
theorem window_take {m : ℤ → UInt8} {off n : ℕ} {vs : List UInt8} (h : window m off vs.length = vs)
    (hn : n ≤ vs.length) : window m off n = vs.take n := by
  conv_rhs => rw [← h, ← Nat.add_sub_cancel' hn, window_add]
  rw [List.take_left' length_window]

theorem leaves_assign (f : Field) (v : UInt8) :
    Leaves (L.store.assign k f v) c () (.item k)
      (overlay (c (.item k)) (L.offset f) (number L f v)) :=
  leaves_store _ _

theorem leaves_terminate (i : ℕ) :
    Leaves (L.store.terminate k i) c () (.item k)
      (overlay (c (.item k)) (L.offset .Ssid + i) [0]) :=
  leaves_store _ _

theorem leaves_memcpy (f : Field) (ptr n : ℕ) (hc : c .description = d) :
    Leaves (L.store.memcpy k f ptr n) c () (.item k)
      (overlay (c (.item k)) (L.offset f) (window d ptr n)) :=
  hc ▸ leaves_copy (item_ne k) _ _ _

namespace Info

theorem flags_of_ne {e : Info} (hvendor : e.elemID ≠ VENDOR_SPECIFIC_221)
    (hrsn : e.elemID ≠ RSN_IE) : e.flags d ptr flags = flags := by
  rw [Info.flags, if_neg hvendor, if_neg hrsn]

theorem put_ssid {e : Info} {m : ℤ → UInt8} (hssid : e.elemID = SSID) : e.put L d ptr m =
    overlay (overlay (overlay m (L.offset .SsidLength)
      (word (UInt8.ofNat (nameLength e.data.length)))) (L.offset .Ssid)
        (e.data.take (nameLength e.data.length))) (L.offset .Ssid + nameLength e.data.length) [0] :=
  if_pos hssid

theorem put_of_ne {e : Info} {m : ℤ → UInt8} (hssid : e.elemID ≠ SSID)
    (hrates : e.elemID ≠ SUPPORTED_RATES) (hds : e.elemID ≠ DS_PARAM_SET) :
    e.put L d ptr m = m := by
  rw [put, if_neg hssid, if_neg hrates, if_neg hds]

end Info

theorem leaves_isWpaOui (hc : c .description = d) :
    Leaves (isWpaOui L.store ptr) c (wpaAt d ptr) (.item k) (c (.item k)) := by
  subst hc
  exact Leaves.of_rd (Leaves.of_rd (Leaves.of_rd (Leaves.of_rd (leaves_pure _))))

/-- The `switch` on an element of the description. -/
theorem leaves_switchElem (e : Info) {elemLen : UInt8} (hlen : elemLen.toNat = e.data.length)
    (hdata : window d (ptr + 2) e.data.length = e.data) (hc : c .description = d) :
    Leaves (switchElem L.store k ptr e.elemID elemLen flags) c (e.flags d ptr flags) (.item k)
      (e.put L d ptr (c (.item k))) := by
  unfold switchElem
  by_cases hssid : e.elemID = SSID
  · rw [if_pos hssid, Info.flags_of_ne (by rw [hssid]; decide) (by rw [hssid]; decide), Info.put,
      if_pos hssid, toNat_ssidLength hlen, ssidLength_eq hlen]
    refine (leaves_assign _ _).bind fun c1 hc1 hframe1 => ?_
    refine (leaves_memcpy _ _ _ (description_eq hframe1 hc)).bind fun c2 hc2 _ => ?_
    refine (leaves_terminate _).bind fun c3 hc3 _ => (leaves_pure flags).congr ?_
    rw [hc3, hc2, hc1, window_take hdata (nameLength_le_self _)]
    rfl
  rw [if_neg hssid]
  by_cases hrates : e.elemID = SUPPORTED_RATES
  · rw [if_pos hrates, Info.flags_of_ne (by rw [hrates]; decide) (by rw [hrates]; decide), Info.put,
      if_neg hssid, if_pos hrates, hlen]
    refine (leaves_memcpy _ _ _ hc).bind fun c1 hc1 hframe1 => ?_
    have hc1' := description_eq hframe1 hc
    refine (leaves_memcpy _ _ _ hc1').bind fun c2 hc2 _ => (leaves_pure flags).congr ?_
    rw [hc2, hc1, hdata]
  rw [if_neg hrates]
  by_cases hds : e.elemID = DS_PARAM_SET
  · rw [if_pos hds, Info.flags_of_ne (by rw [hds]; decide) (by rw [hds]; decide), Info.put,
      if_neg hssid, if_neg hrates, if_pos hds]
    refine Leaves.of_rd ((leaves_assign _ _).bind fun c1 hc1 _ => (leaves_pure flags).congr ?_)
    rw [hc1, hc]
    rfl
  rw [if_neg hds, Info.put_of_ne hssid hrates hds]
  by_cases hvendor : e.elemID = VENDOR_SPECIFIC_221
  · rw [if_pos hvendor, Info.flags, if_pos hvendor]
    exact (leaves_isWpaOui hc).bind fun c1 hc1 _ => (leaves_pure _).congr hc1
  rw [if_neg hvendor]
  by_cases hrsn : e.elemID = RSN_IE
  · rw [if_pos hrsn, Info.flags, if_neg hvendor, if_pos hrsn]
    exact leaves_pure _
  rw [if_neg hrsn, Info.flags_of_ne hvendor hrsn]
  exact leaves_pure _

/-- The first element of an encoding, and the rest. -/
theorem window_encodeAll_cons {e : Info} {es : List Info} (h : window d ptr
    (Info.encodeAll (e :: es)).length = Info.encodeAll (e :: es)) :
    d (ptr : ℤ) = e.elemID ∧ (d ((ptr + 1 : ℕ) : ℤ)).toNat = e.data.length ∧
      window d (ptr + 2) e.data.length = e.data ∧
      window d (ptr + (e.data.length + 2)) (Info.encodeAll es).length = Info.encodeAll es := by
  have hcons : Info.encodeAll (e :: es) =
      e.elemID :: UInt8.ofNat e.data.length :: (e.data ++ Info.encodeAll es) := rfl
  rw [hcons, List.length_cons, List.length_cons, window_succ, window_succ, List.length_append,
    window_add, List.cons.injEq, List.cons.injEq] at h
  obtain ⟨hid, hlen, hrest⟩ := h
  obtain ⟨hdata, hrest⟩ := List.append_inj hrest length_window
  refine ⟨hid, ?_, hdata, ?_⟩
  · rw [hlen, UInt8.toNat_ofNat', Nat.mod_eq_of_lt e.length_lt]
  · rw [show ptr + (e.data.length + 2) = ptr + 1 + 1 + e.data.length by omega]
    exact hrest

theorem length_encodeAll_cons (e : Info) (es : List Info) : (Info.encodeAll (e :: es)).length =
    e.data.length + 2 + (Info.encodeAll es).length := by
  rw [Info.encodeAll, List.flatMap_cons, List.length_append]
  rfl

/-- The loop over the elements of a beacon. -/
theorem leaves_variableIE (es : List Info) (hc : c .description = d)
    (hes : window d ptr (Info.encodeAll es).length = Info.encodeAll es) :
    Leaves (variableIE L.store k ptr (Info.encodeAll es).length flags) c () (.item k)
      (putAll L d ptr flags es (c (.item k))) := by
  induction es generalizing ptr flags c with
  | nil =>
    rw [variableIE, if_neg (by decide)]
    exact leaves_pure _
  | cons e es ih =>
    obtain ⟨hid, hlen, hdata, hrest⟩ := window_encodeAll_cons hes
    have hlength := length_encodeAll_cons e es
    have hid : c .description (ptr : ℤ) = e.elemID := by rw [hc, hid]
    have hlen : (c .description ((ptr + 1 : ℕ) : ℤ)).toNat = e.data.length := by rw [hc, hlen]
    rw [variableIE, if_pos (by omega)]
    refine Leaves.of_rd (Leaves.of_rd ?_)
    rw [hid, hlen, if_neg (by omega)]
    refine (leaves_switchElem e hlen hdata hc).bind fun c1 hc1 hframe1 => ?_
    refine (leaves_assign _ _).bind fun c2 hc2 hframe2 => ?_
    have hleft : ((Info.encodeAll (e :: es)).length : ℤ) - ((e.data.length : ℕ) + 2) =
        (Info.encodeAll es).length := by omega
    rw [hleft]
    have hc2' := description_eq hframe2 (description_eq hframe1 hc)
    refine (ih hc2' hrest).congr ?_
    rw [hc2, hc1]
    rfl

end Parser

/-! ## The fields of an item after the elements -/

section Fields

variable {L : Layout} {d : ℤ → UInt8} {ptr t n : ℕ} {flags : Flags} {m : ℤ → UInt8} {e : Info}
variable {es : List Info}

/-- An element that does not touch the `n` bytes of the item from `t` on. -/
structure Info.Apart (L : Layout) (t n : ℕ) (e : Info) : Prop where
  ssid : e.elemID = SSID → t + n ≤ L.offset .SsidLength ∨ L.offset .Privacy + 1 ≤ t
  rates : e.elemID = SUPPORTED_RATES → e.data.length ≤ WLAN_SUPPORTED_RATES ∧
    (t + n ≤ L.offset .SupportedRates ∨ L.offset .Security ≤ t)
  ds : e.elemID = DS_PARAM_SET → t + n ≤ L.offset .Channel ∨ L.offset .Channel + 4 ≤ t

theorem length_word (v : UInt8) : (word v).length = 4 := rfl

theorem window_put (h : e.Apart L t n) : window (e.put L d ptr m) t n = window m t n := by
  have horder := L.in_order
  unfold Info.put
  by_cases hssid : e.elemID = SSID
  · have hapart := h.ssid hssid
    have hn := nameLength_le e.data.length
    have htake := length_take_nameLength e.data
    rw [if_pos hssid, window_overlay_of_apart (by rw [List.length_singleton]; omega),
      window_overlay_of_apart (by rw [htake]; omega),
      window_overlay_of_apart (by rw [length_word]; omega)]
  rw [if_neg hssid]
  by_cases hrates : e.elemID = SUPPORTED_RATES
  · obtain ⟨hlen, hapart⟩ := h.rates hrates
    rw [if_pos hrates, window_overlay_of_apart (by omega), window_overlay_of_apart (by omega)]
  rw [if_neg hrates]
  by_cases hds : e.elemID = DS_PARAM_SET
  · have hapart := h.ds hds
    rw [if_pos hds, window_overlay_of_apart (by rw [length_word]; omega)]
  rw [if_neg hds]

/-- What lies before `Security` and apart from all elements stays. -/
theorem window_putAll (h : ∀ e ∈ es, e.Apart L t n) (hsecurity : t + n ≤ L.offset .Security) :
    window (putAll L d ptr flags es m) t n = window m t n := by
  induction es generalizing ptr flags m with
  | nil => rfl
  | cons e es ih =>
    rw [putAll, ih fun e' he' => h e' (List.mem_cons_of_mem e he'),
      window_overlay_of_apart (.inl hsecurity), window_put (h e List.mem_cons_self)]

theorem last_eq_none {elemID : UInt8} :
    Info.last elemID es = none ↔ ∀ e ∈ es, e.elemID ≠ elemID := by
  induction es with
  | nil => simp [Info.last]
  | cons e es ih =>
    rw [Info.last, Option.or_eq_none_iff, ih, List.forall_mem_cons, and_comm]
    simp

theorem last_mem {elemID : UInt8} (h : Info.last elemID es = some e) :
    e ∈ es ∧ e.elemID = elemID := by
  induction es with
  | nil => cases h
  | cons e' es ih =>
    rw [Info.last, Option.or_eq_some_iff] at h
    rcases h with h | ⟨-, h⟩
    · obtain ⟨hmem, hid⟩ := ih h
      exact ⟨List.mem_cons_of_mem e' hmem, hid⟩
    · rw [Option.ite_none_right_eq_some, Option.some.injEq] at h
      obtain ⟨hid, rfl⟩ := h
      exact ⟨List.mem_cons_self, hid⟩

variable (flags m) in
/-- What only elements with one id touch is as the last of them leaves it. -/
theorem window_putAll_of_last {elemID : UInt8} (hlast : Info.last elemID es = some e)
    (hes : window d ptr (Info.encodeAll es).length = Info.encodeAll es) :
    ∃ ptr' m', window d (ptr' + 2) e.data.length = e.data ∧
      ∀ t n, (∀ e' ∈ es, e'.elemID ≠ elemID → e'.Apart L t n) → t + n ≤ L.offset .Security →
        window (putAll L d ptr flags es m) t n = window (e.put L d ptr' m') t n := by
  induction es generalizing ptr flags m with
  | nil => cases hlast
  | cons e' es ih =>
    obtain ⟨-, -, hdata, hrest⟩ := window_encodeAll_cons hes
    cases htail : Info.last elemID es with
    | some e'' =>
      rw [Info.last, htail, Option.some_or, Option.some.injEq] at hlast
      subst hlast
      obtain ⟨ptr', m', hdata', hwindow⟩ := ih _ _ htail hrest
      exact ⟨ptr', m', hdata', fun t n hapart hsecurity =>
        hwindow t n (fun e' he' => hapart e' (List.mem_cons_of_mem _ he')) hsecurity⟩
    | none =>
      rw [Info.last, htail, Option.none_or, Option.ite_none_right_eq_some,
        Option.some.injEq] at hlast
      obtain ⟨hid, rfl⟩ := hlast
      refine ⟨ptr, m, hdata, fun t n hapart hsecurity => ?_⟩
      rw [putAll, window_putAll (fun e he => hapart e (List.mem_cons_of_mem _ he)
        (last_eq_none.mp htail e he)) hsecurity, window_overlay_of_apart (.inl hsecurity)]

/-! Each field -/

variable (hrates : ∀ e ∈ es, e.elemID = SUPPORTED_RATES → e.data.length ≤ WLAN_SUPPORTED_RATES)

/-- Between the fields the elements set, nothing is touched. -/
theorem Info.Apart.of_gap (hlen : e.elemID = SUPPORTED_RATES → e.data.length ≤ WLAN_SUPPORTED_RATES)
    (h : t + n ≤ L.offset .SsidLength ∨ L.offset .Privacy + 1 ≤ t ∧ t + n ≤ L.offset .Channel ∨
      L.offset .Channel + 4 ≤ t ∧ t + n ≤ L.offset .SupportedRates) : e.Apart L t n := by
  have horder := L.in_order
  refine ⟨fun _ => ?_, fun hid => ⟨hlen hid, ?_⟩, fun _ => ?_⟩
  · omega
  · omega
  · omega

/-- Only an SSID sets what lies between its length and the end of `Privacy`. -/
theorem Info.Apart.of_ne_ssid (hlen : e.elemID = SUPPORTED_RATES →
      e.data.length ≤ WLAN_SUPPORTED_RATES) (hid : e.elemID ≠ SSID)
    (h : t + n ≤ L.offset .Privacy + 4) : e.Apart L t n := by
  have horder := L.in_order
  refine ⟨fun h => absurd h hid, fun hid => ⟨hlen hid, ?_⟩, fun _ => ?_⟩
  · omega
  · omega

include hrates

theorem window_putAll_of_gap (h : t + n ≤ L.offset .SsidLength ∨
    L.offset .Privacy + 1 ≤ t ∧ t + n ≤ L.offset .Channel ∨
      L.offset .Channel + 4 ≤ t ∧ t + n ≤ L.offset .SupportedRates) :
    window (putAll L d ptr flags es m) t n = window m t n := by
  have horder := L.in_order
  refine window_putAll (fun e he => Info.Apart.of_gap (hrates e he) h) ?_
  omega

theorem channel_putAll (hlast : Info.last DS_PARAM_SET es = some e) {CurrentChan : UInt8}
    (hhead : e.data.head? = some CurrentChan)
    (hes : window d ptr (Info.encodeAll es).length = Info.encodeAll es) :
    window (putAll L d ptr flags es m) (L.offset .Channel) 4 = word CurrentChan := by
  have horder := L.in_order
  obtain ⟨ptr', m', hdata, hwindow⟩ := window_putAll_of_last flags m hlast hes
  have hid := (last_mem hlast).2
  have hbyte : d ((ptr' + 2 : ℕ) : ℤ) = CurrentChan := by
    obtain ⟨rest, hrest⟩ := List.head?_eq_some_iff.mp hhead
    rw [hrest, List.length_cons, window_succ] at hdata
    exact (List.cons.inj hdata).1
  rw [hwindow _ _ (fun e' he' hne => ⟨fun _ => .inr (by omega), fun hid => ⟨hrates e' he' hid,
    .inl (by omega)⟩, fun hid => absurd hid hne⟩) (by omega), Info.put,
    if_neg (by rw [hid]; decide), if_neg (by rw [hid]; decide), if_pos hid,
    window_overlay (length_word _), hbyte]

/-- The last SSID is stored with a zero behind it. -/
theorem ssid_putAll (hlast : Info.last SSID es = some e)
    (hes : window d ptr (Info.encodeAll es).length = Info.encodeAll es) :
    window (putAll L d ptr flags es m) (L.offset .SsidLength) 4 =
        word (UInt8.ofNat (nameLength e.data.length)) ∧
      window (putAll L d ptr flags es m) (L.offset .Ssid) (nameLength e.data.length) =
        e.data.take (nameLength e.data.length) ∧
      window (putAll L d ptr flags es m) (L.offset .Ssid + nameLength e.data.length) 1 = [0] := by
  have horder := L.in_order
  have hn := nameLength_le e.data.length
  have htake := length_take_nameLength e.data
  obtain ⟨ptr', m', -, hwindow⟩ := window_putAll_of_last flags m hlast hes
  have hput {t n : ℕ} (h : t + n ≤ L.offset .Privacy + 4) :
      window (putAll L d ptr flags es m) t n = window (e.put L d ptr' m') t n :=
    hwindow t n (fun e' he' hne => Info.Apart.of_ne_ssid (hrates e' he') hne h) (by omega)
  rw [hput (by omega), hput (by omega), hput (by omega), Info.put, if_pos (last_mem hlast).2]
  refine ⟨?_, ?_, window_overlay rfl⟩
  · rw [window_overlay_of_apart (.inl (by omega)), window_overlay_of_apart (.inl (by omega)),
      window_overlay (length_word _)]
  · rw [window_overlay_of_apart (.inl (by omega)), window_overlay htake]

omit hrates in
theorem privacy_put (hlen : e.elemID = SUPPORTED_RATES → e.data.length ≤ WLAN_SUPPORTED_RATES) :
    window (e.put L d ptr m) (L.offset .Privacy) 4 =
      if e.LongSsid then 0 :: window m (L.offset .Privacy + 1) 3
      else window m (L.offset .Privacy) 4 := by
  have horder := L.in_order
  by_cases hssid : e.elemID = SSID
  · have htake := length_take_nameLength e.data
    rw [Info.put_ssid hssid]
    by_cases hlong : WLAN_MAX_SSID_LENGTH ≤ e.data.length
    · have hn : nameLength e.data.length = WLAN_MAX_SSID_LENGTH := if_neg (by omega)
      rw [if_pos ⟨hssid, hlong⟩, hn, ← L.privacy, window_succ]
      refine congrArg₂ List.cons ?_ ?_
      · have hfirst : 0 < [(0 : UInt8)].length := Nat.one_pos
        exact overlay_of_lt hfirst
      · rw [window_overlay_of_apart (.inr (by rw [List.length_singleton])),
          window_overlay_of_apart (by rw [← hn, htake]; omega),
          window_overlay_of_apart (by rw [length_word]; omega)]
    · have hn : nameLength e.data.length = e.data.length := if_pos (by omega)
      rw [if_neg fun h => hlong h.2,
        window_overlay_of_apart (by rw [List.length_singleton]; omega),
        window_overlay_of_apart (by rw [htake]; omega),
        window_overlay_of_apart (by rw [length_word]; omega)]
  · rw [if_neg fun h => hssid h.1]
    exact window_put (Info.Apart.of_ne_ssid hlen hssid le_rfl)

/-- The terminator of a long SSID lands in `Privacy`. -/
theorem privacy_putAll : window (putAll L d ptr flags es m) (L.offset .Privacy) 4 =
    if ∃ e ∈ es, e.LongSsid then 0 :: window m (L.offset .Privacy + 1) 3
    else window m (L.offset .Privacy) 4 := by
  have horder := L.in_order
  induction es generalizing ptr flags m with
  | nil => rfl
  | cons e es ih =>
    obtain ⟨hlen, hrates⟩ := List.forall_mem_cons.mp hrates
    have hrest : window (overlay (e.put L d ptr m) (L.offset .Security)
        (enumBytes L (e.flags d ptr flags).security)) (L.offset .Privacy + 1) 3 =
          window m (L.offset .Privacy + 1) 3 := by
      rw [window_overlay_of_apart (.inl (by omega)), window_put (Info.Apart.of_gap hlen (by omega))]
    rw [putAll, ih hrates, hrest, window_overlay_of_apart (.inl (by omega)), privacy_put hlen]
    simp only [List.exists_mem_cons_iff]
    by_cases htail : ∃ e ∈ es, e.LongSsid
    · rw [if_pos htail, if_pos (.inr htail)]
    · rw [if_neg htail]
      by_cases hlong : e.LongSsid
      · rw [if_pos hlong, if_pos (.inl hlong)]
      · rw [if_neg hlong, if_neg (not_or.mpr ⟨hlong, htail⟩)]

omit hrates in
theorem length_enumBytes (v : UInt8) : (enumBytes L v).length = L.enumPad + 1 := by
  rw [enumBytes, List.length_cons, List.length_replicate]

omit hrates in
/-- `Security` is set after each element, by the flags so far. -/
theorem security_putAll : window (putAll L d ptr flags es m) (L.offset .Security) (L.enumPad + 1) =
    if es = [] then window m (L.offset .Security) (L.enumPad + 1)
    else enumBytes L (flagsAfter d ptr flags es).security := by
  induction es generalizing ptr flags m with
  | nil => rfl
  | cons e es ih =>
    rw [putAll, ih, if_neg (List.cons_ne_nil e es), flagsAfter, window_overlay (length_enumBytes _)]
    by_cases hnil : es = []
    · rw [if_pos hnil, hnil]
      rfl
    · rw [if_neg hnil]

end Fields

/-! ## One beacon -/

namespace Beacon

/-- The byte the pointer `pCap` is followed to. -/
def wildByte (b : Beacon) (stack : Stack) (memory : ℤ → UInt8) (ptr : ℕ) : UInt8 :=
  memory ((65536 * stack ptr + b.capability.toNat : ℕ) : ℤ)

/-- The item after the fields of fixed size. -/
def putFixed (b : Beacon) (L : Layout) (pCap : UInt8) (m : ℤ → UInt8) : ℤ → UInt8 :=
  overlay (overlay (overlay (overlay m (L.offset .MacAddress) b.mac.toList) (L.offset .Rssi)
    (word b.rssi)) (L.offset .Privacy) (word (if pCap.toNat.testBit 4 then 1 else 0)))
      (L.offset .InfrastructureMode) (enumBytes L (if pCap.toNat.testBit 1 then 0 else 1))

/-- The item after the beacon at `ptr`. -/
def put (b : Beacon) (L : Layout) (d : ℤ → UInt8) (pCap : UInt8) (ptr : ℕ) (m : ℤ → UInt8) :
    ℤ → UInt8 :=
  putAll L d (ptr + 19) ⟨false, false⟩ b.elements (b.putFixed L pCap m)

theorem length_u16Bytes (n : ℕ) : (u16Bytes n).length = 2 := rfl

theorem length_body (b : Beacon) : b.body.length = b.size := by
  rw [body, List.length_append, List.length_append, List.length_append, List.length_append,
    List.length_append, Vector.length_toList, Vector.length_toList, List.length_singleton,
    length_u16Bytes, length_u16Bytes, size]
  omega

/-- What the parser reads of a beacon at `ptr`. -/
theorem window_body {b : Beacon} {d : ℤ → UInt8} {ptr : ℕ}
    (h : window d ptr b.body.length = b.body) : window d ptr ETH_ALEN = b.mac.toList ∧
      d ((ptr + 6 : ℕ) : ℤ) = b.rssi ∧
      256 * (d ((ptr + 18 : ℕ) : ℤ)).toNat + (d ((ptr + 17 : ℕ) : ℤ)).toNat = b.capability.toNat ∧
      window d (ptr + 19) (Info.encodeAll b.elements).length = Info.encodeAll b.elements := by
  rw [body, window_append_iff, window_append_iff, window_append_iff, window_append_iff,
    window_append_iff] at h
  obtain ⟨hmac, hrssi, -, -, hcap, helements⟩ := h
  rw [Vector.length_toList] at hmac
  simp only [Vector.length_toList, List.length_singleton, length_u16Bytes, Nat.add_assoc,
    Nat.reduceAdd] at hrssi hcap helements
  refine ⟨hmac, ?_, ?_, helements⟩
  · rw [show 1 = 0 + 1 from rfl, window_succ] at hrssi
    exact (List.cons.inj hrssi).1
  · rw [show 2 = 0 + 1 + 1 from rfl, window_succ, window_succ, u16Bytes, List.cons.injEq,
      List.cons.injEq] at hcap
    have hlt := b.capability.toNat_lt
    rw [hcap.1, hcap.2.1, UInt8.toNat_ofNat', UInt8.toNat_ofNat']
    omega

end Beacon

section Beacon

variable {L : Layout} {d : ℤ → UInt8} {k ptr : ℕ} {c : Cells Buf UInt8} {stack : Stack} {b : Beacon}

theorem leaves_fixedFields (hc : c .description = d) (hrssi : d ((ptr + 6 : ℕ) : ℤ) = b.rssi)
    (hcap : 256 * (d ((ptr + 18 : ℕ) : ℤ)).toNat + (d ((ptr + 17 : ℕ) : ℤ)).toNat =
      b.capability.toNat) :
    Leaves (fixedFields L.store stack k ptr) c () (.item k) (overlay (overlay (overlay (c (.item k))
      (L.offset .Rssi) (word b.rssi)) (L.offset .Privacy)
        (word (if (b.wildByte stack (c .memory) ptr).toNat.testBit 4 then 1 else 0)))
        (L.offset .InfrastructureMode)
          (enumBytes L (if (b.wildByte stack (c .memory) ptr).toNat.testBit 1 then 0 else 1))) := by
  unfold fixedFields
  refine Leaves.of_rd ((leaves_assign _ _).bind fun c1 hc1 hframe1 => ?_)
  have hpCap : 65536 * stack ptr + 256 * (c1 .description ((ptr + 18 : ℕ) : ℤ)).toNat +
      (c1 .description ((ptr + 17 : ℕ) : ℤ)).toNat = 65536 * stack ptr + b.capability.toNat := by
    rw [description_eq hframe1 hc]
    omega
  refine Leaves.of_rd (Leaves.of_rd (Leaves.of_rd ?_))
  rw [hpCap]
  refine (leaves_assign _ _).bind fun c2 hc2 hframe2 => Leaves.of_rd ?_
  refine (leaves_assign _ _).congr ?_
  rw [hc2, hc1, memory_eq hframe2, memory_eq hframe1, hc, hrssi]
  rfl

/-- A beacon is parsed into the item. -/
theorem leaves_parzeBSSDescription (hc : c .description = d)
    (hb : window d ptr b.body.length = b.body) :
    Leaves (parzeBSSDescription L.store stack k ptr b.size) c WLAN_STATUS_SUCCESS (.item k)
      (b.put L d (b.wildByte stack (c .memory) ptr) ptr (c (.item k))) := by
  obtain ⟨hmac, hrssi, hcap, helements⟩ := Beacon.window_body hb
  unfold parzeBSSDescription
  refine (leaves_memcpy _ _ _ hc).bind fun c1 hc1 hframe1 => ?_
  have hdesc1 : c1 .description = d := description_eq hframe1 hc
  rw [if_neg (by rw [Beacon.size, ETH_ALEN]; omega)]
  refine (leaves_fixedFields hdesc1 hrssi hcap).bind fun c2 hc2 hframe2 => ?_
  have hdesc2 : c2 .description = d := description_eq hframe2 hdesc1
  have hleft : (b.size : ℤ) - 19 = (Info.encodeAll b.elements).length := by
    rw [Beacon.size]
    omega
  rw [hleft]
  refine (leaves_variableIE _ hdesc2 helements).bind fun c3 hc3 _ => (leaves_pure _).congr ?_
  rw [hc3, hc2, hc1, memory_eq hframe1, hmac]
  rfl

/-! The fields of the item -/

theorem flagsAfter_eq (ptr : ℕ) (flags : Flags) (es : List Info) : flagsAfter d ptr flags es =
    ⟨flags.wpaflag || ouiSeen d ptr es,
      flags.wpa2flag || es.any fun e => e.elemID = RSN_IE⟩ := by
  induction es generalizing ptr flags with
  | nil => simp [flagsAfter, ouiSeen]
  | cons e es ih =>
    rw [flagsAfter, ih, ouiSeen, List.any_cons]
    by_cases hvendor : e.elemID = VENDOR_SPECIFIC_221
    · have hne : ¬ VENDOR_SPECIFIC_221 = RSN_IE := by decide
      cases hwpa : wpaAt d (ptr + 2) with
      | true => simp [Info.flags, hvendor, hwpa, hne]
      | false => simp [Info.flags, hvendor, hwpa, hne]
    · by_cases hrsn : e.elemID = RSN_IE
      · have hne : ¬ RSN_IE = VENDOR_SPECIFIC_221 := by decide
        simp [Info.flags, hrsn, hne]
      · simp [Info.flags, hvendor, hrsn]

/-- The OUI of an element is seen. -/
theorem ouiSeen_of_isWpa {es : List Info} (hes : window d ptr (Info.encodeAll es).length =
    Info.encodeAll es) (h : ∃ e ∈ es, e.IsWpa) : ouiSeen d ptr es = true := by
  induction es generalizing ptr with
  | nil =>
    obtain ⟨e, he, -⟩ := h
    cases he
  | cons e es ih =>
    obtain ⟨-, -, hdata, hrest⟩ := window_encodeAll_cons hes
    rw [List.exists_mem_cons_iff] at h
    rw [ouiSeen, Bool.or_eq_true]
    cases h with
    | inl hwpa =>
      obtain ⟨hvendor, rest, hrest⟩ := hwpa
      rw [← hrest, window_append_iff] at hdata
      obtain ⟨houi, -⟩ := hdata
      simp only [List.length_cons, List.length_nil, window_succ, List.cons.injEq] at houi
      exact .inl (decide_eq_true ⟨hvendor, decide_eq_true ⟨houi.1, houi.2.1, houi.2.2.1,
        houi.2.2.2.1⟩⟩)
    | inr htail => exact .inr (ih hrest htail)

/-- The first 32 bytes of an SSID. -/
theorem take_nameLength (data : List UInt8) :
    data.take (nameLength data.length) = data.take WLAN_MAX_SSID_LENGTH := by
  unfold nameLength
  split
  case isTrue hshort => rw [List.take_length, List.take_of_length_le hshort.le]
  case isFalse => rfl

theorem word_inj {v w : UInt8} : word v = word w ↔ v = w := by
  rw [word, word, List.cons.injEq, and_iff_left rfl]

theorem enumBytes_inj {v w : UInt8} : enumBytes L v = enumBytes L w ↔ v = w := by
  rw [enumBytes, enumBytes, List.cons.injEq, and_iff_left rfl]

variable {pCap : UInt8} {m : ℤ → UInt8}

theorem put_mac : window (b.put L d pCap ptr m) (L.offset .MacAddress) ETH_ALEN = b.mac.toList := by
  have horder := L.in_order
  rw [Beacon.put, window_putAll_of_gap b.rates (.inl L.ssidLength), Beacon.putFixed,
    window_overlay_of_apart (.inl (by omega)), window_overlay_of_apart (.inl (by omega)),
    window_overlay_of_apart (.inl (by omega)), window_overlay b.mac.length_toList]

theorem put_rssi : window (b.put L d pCap ptr m) (L.offset .Rssi) 4 = word b.rssi := by
  have horder := L.in_order
  rw [Beacon.put, window_putAll_of_gap b.rates (.inr (.inl (by omega))), Beacon.putFixed,
    window_overlay_of_apart (.inl (by omega)),
    window_overlay_of_apart (.inr (by rw [length_word]; omega)), window_overlay (length_word _)]

/-- `Privacy` after the beacon. -/
theorem put_privacy : window (b.put L d pCap ptr m) (L.offset .Privacy) 4 =
    word (if b.HasLongSsid then 0 else if pCap.toNat.testBit 4 then 1 else 0) := by
  have horder := L.in_order
  have hfixed : window (b.putFixed L pCap m) (L.offset .Privacy) 4 =
      word (if pCap.toNat.testBit 4 then 1 else 0) := by
    rw [Beacon.putFixed, window_overlay_of_apart (.inl (by omega)), window_overlay (length_word _)]
  have hrest : window (b.putFixed L pCap m) (L.offset .Privacy + 1) 3 = [0, 0, 0] := by
    rw [window_succ] at hfixed
    exact (List.cons.inj hfixed).2
  rw [Beacon.put, privacy_putAll b.rates, hfixed, hrest]
  change (if b.HasLongSsid then _ else _) = _
  by_cases hlong : b.HasLongSsid
  · rw [if_pos hlong, if_pos hlong]
    rfl
  · rw [if_neg hlong, if_neg hlong]

theorem put_infrastructureMode :
    window (b.put L d pCap ptr m) (L.offset .InfrastructureMode) (L.enumPad + 1) =
      enumBytes L (if pCap.toNat.testBit 1 then 0 else 1) := by
  have horder := L.in_order
  rw [Beacon.put, window_putAll_of_gap b.rates (.inr (.inr (by omega))), Beacon.putFixed,
    window_overlay (length_enumBytes _)]

/-- `Security` after the beacon. -/
theorem put_security :
    window (b.put L d pCap ptr m) (L.offset .Security) (L.enumPad + 1) =
      if b.elements = [] then window m (L.offset .Security) (L.enumPad + 1)
      else enumBytes L
        (if b.HasRsn then 3 else if ouiSeen d (ptr + 19) b.elements then 2 else 1) := by
  have horder := L.in_order
  have hfixed : window (b.putFixed L pCap m) (L.offset .Security) (L.enumPad + 1) =
      window m (L.offset .Security) (L.enumPad + 1) := by
    rw [Beacon.putFixed,
      window_overlay_of_apart (.inr (by rw [length_enumBytes]; omega)),
      window_overlay_of_apart (.inr (by rw [length_word]; omega)),
      window_overlay_of_apart (.inr (by rw [length_word]; omega)),
      window_overlay_of_apart (.inr (by rw [b.mac.length_toList, ← ETH_ALEN]; omega))]
  have hrsn : (b.elements.any fun e => e.elemID = RSN_IE) = true ↔ b.HasRsn := by
    simp only [List.any_eq_true, decide_eq_true_eq]
    rfl
  rw [Beacon.put, security_putAll, hfixed, flagsAfter_eq, Flags.security]
  simp only [Bool.false_or, hrsn]

/-- A flag stored as a number. -/
theorem flag_inj {p q : Bool} {v w : UInt8} (hne : v ≠ w) :
    (if p then v else w) = (if q then v else w) ↔ p = q := by
  cases p with
  | true =>
    cases q with
    | true => simp
    | false => simpa using hne
  | false =>
    cases q with
    | true => simpa using hne.symm
    | false => simp

theorem put_privacy_iff :
    window (b.put L d pCap ptr m) (L.offset .Privacy) 4 = word (if b.Privacy then 1 else 0) ↔
      if b.HasLongSsid then b.Privacy = false else pCap.toNat.testBit 4 = b.Privacy := by
  rw [put_privacy, word_inj]
  by_cases hlong : b.HasLongSsid
  · rw [if_pos hlong, if_pos hlong]
    cases b.Privacy with
    | true => decide
    | false => decide
  · rw [if_neg hlong, if_neg hlong]
    exact flag_inj (by decide)

/-- With elements, `Security` is right unless a network without RSN and WPA elements is taken
    for WPA, or, without encryption, for WEP. -/
theorem security_eq_iff (hseen : b.HasWpa → ouiSeen d (ptr + 19) b.elements = true) :
    (if b.HasRsn then 3 else if ouiSeen d (ptr + 19) b.elements then 2 else 1) = b.security ↔
      b.HasRsn ∨ b.HasWpa ∨ (b.Privacy = true ∧ ouiSeen d (ptr + 19) b.elements = false) := by
  rw [Beacon.security]
  by_cases hrsn : b.HasRsn
  · rw [if_pos hrsn, if_pos hrsn]
    exact iff_of_true rfl (.inl hrsn)
  rw [if_neg hrsn, if_neg hrsn]
  by_cases hwpa : b.HasWpa
  · rw [if_pos hwpa, if_pos (hseen hwpa)]
    exact iff_of_true rfl (.inr (.inl hwpa))
  rw [if_neg hwpa]
  simp only [hrsn, hwpa, false_or]
  cases ouiSeen d (ptr + 19) b.elements with
  | true =>
    cases b.Privacy with
    | true => decide
    | false => decide
  | false =>
    cases b.Privacy with
    | true => decide
    | false => decide

/-- The item is that of the beacon in the fields `pCap` has nothing to do with, and in the
    others exactly when it should be. -/
theorem holds_iff (hb : window d ptr b.body.length = b.body) :
    Holds L b (b.put L d pCap ptr m) ↔ Good L b d pCap ptr m := by
  obtain ⟨-, -, -, helements⟩ := Beacon.window_body hb
  have hsecurity := security_eq_iff fun hwpa => ouiSeen_of_isWpa helements hwpa
  constructor
  · intro h
    have hmode := h.infrastructureMode
    rw [put_infrastructureMode, enumBytes_inj, flag_inj (by decide)] at hmode
    have hstored := h.security
    rw [put_security] at hstored
    refine ⟨put_privacy_iff.mp h.privacy, hmode, fun hnil => ?_, fun hne => ?_⟩
    · rwa [if_pos hnil] at hstored
    · rw [if_neg hne, enumBytes_inj] at hstored
      exact hsecurity.mp hstored
  · intro h
    refine ⟨put_mac, put_rssi, fun e hlast CurrentChan hhead => ?_, fun e hlast => ?_,
      fun e hlast => ?_, fun e hlast => ?_, put_privacy_iff.mpr h.privacy, ?_, ?_⟩
    · exact channel_putAll b.rates hlast hhead helements
    · exact (ssid_putAll b.rates hlast helements).1
    · exact (ssid_putAll b.rates hlast helements).2.1.trans (take_nameLength e.data)
    · exact (ssid_putAll b.rates hlast helements).2.2
    · rw [put_infrastructureMode, enumBytes_inj]
      exact (flag_inj (by decide)).mpr h.ibss
    · rw [put_security]
      by_cases hnil : b.elements = []
      · rw [if_pos hnil]
        exact h.noElements hnil
      · rw [if_neg hnil, enumBytes_inj]
        exact hsecurity.mpr (h.elements hnil)

end Beacon

/-! ## The beacons of a response -/

namespace Beacons

variable {bs : Beacons} {i : ℕ}

theorem encode_split (hi : i < bs.list.length) : bs.encode =
    (bs.list.take i).flatMap Beacon.encode ++ ((bs.list.get ⟨i, hi⟩).encode ++
      (bs.list.drop (i + 1)).flatMap Beacon.encode) := by
  have hdrop : bs.list.drop i = bs.list.get ⟨i, hi⟩ :: bs.list.drop (i + 1) :=
    List.drop_eq_getElem_cons hi
  rw [encode, ← List.flatMap_cons, ← hdrop, ← List.flatMap_append, List.take_append_drop]

theorem offset_succ (hi : i < bs.list.length) :
    bs.offset (i + 1) = bs.offset i + (2 + (bs.list.get ⟨i, hi⟩).size) := by
  have htake : bs.list.take (i + 1) = bs.list.take i ++ [bs.list.get ⟨i, hi⟩] :=
    (List.take_append_getElem hi).symm
  rw [offset, htake, List.flatMap_append, List.length_append, List.flatMap_singleton,
    Beacon.encode, List.length_append, Beacon.length_body]
  rfl

theorem offset_le (hi : i < bs.list.length) : bs.offset (i + 1) ≤ bs.encode.length := by
  rw [offset_succ hi, encode_split hi, List.length_append, List.length_append, Beacon.encode,
    List.length_append, Beacon.length_body, ← offset, Beacon.length_u16Bytes]
  omega

/-- The bytes of beacon `i`. -/
theorem window_beacon {d : ℤ → UInt8} (h : window d 0 bs.encode.length = bs.encode)
    (hi : i < bs.list.length) :
    256 * (d ((bs.offset i + 1 : ℕ) : ℤ)).toNat + (d (bs.offset i : ℤ)).toNat =
        (bs.list.get ⟨i, hi⟩).size ∧
      window d (bs.start i) (bs.list.get ⟨i, hi⟩).body.length = (bs.list.get ⟨i, hi⟩).body := by
  rw [encode_split hi, window_append_iff, window_append_iff, Beacon.encode, window_append_iff,
    Nat.zero_add, ← offset] at h
  obtain ⟨-, ⟨hsize, hbody⟩, -⟩ := h
  refine ⟨?_, hbody⟩
  rw [Beacon.length_u16Bytes, window_succ, window_succ, u16Bytes, List.cons.injEq,
    List.cons.injEq] at hsize
  have hlt := (bs.list.get ⟨i, hi⟩).size_lt
  rw [hsize.1, hsize.2.1, UInt8.toNat_ofNat', UInt8.toNat_ofNat', Beacon.size]
  omega

/-- The state before beacon `i`. -/
def state (bs : Beacons) (buffer : ResultBuffer) (i : ℕ) : State :=
  ⟨bs.offset i, bs.encode.length - bs.offset i, buffer.ScanResultcount + UInt32.ofNat i⟩

end Beacons

section Loop

variable {L : Layout} {d : ℤ → UInt8} {c : Cells Buf UInt8} {stack : Stack} {bs : Beacons}
variable {buffer : ResultBuffer} {i : ℕ}

/-- The item of beacon `i` once it is parsed, of what it was. -/
def stored (L : Layout) (stack : Stack) (bs : Beacons) (c : Cells Buf UInt8) (i : ℕ)
    (hi : i < bs.list.length) (m : ℤ → UInt8) : ℤ → UInt8 :=
  (bs.list.get ⟨i, hi⟩).put L (c .description)
    ((bs.list.get ⟨i, hi⟩).wildByte stack (c .memory) (bs.start i)) (bs.start i) m

/-- The declared size of beacon `i` is taken off. -/
theorem leaves_beaconSize (k : ℕ) (hc : window (c .description) 0 bs.encode.length = bs.encode)
    (hi : i < bs.list.length) : Leaves (beaconSize L.store (bs.state buffer i)) c
      ((bs.list.get ⟨i, hi⟩).size, (bs.state buffer i).advance 2) (.item k) (c (.item k)) := by
  obtain ⟨hsize, -⟩ := Beacons.window_beacon hc hi
  have hoffset := Beacons.offset_succ hi
  have hle := Beacons.offset_le hi
  have hleft : 2 ≤ bs.encode.length - bs.offset i := by omega
  unfold beaconSize
  rw [if_pos (show 2 ≤ (bs.state buffer i).bytesLeft from hleft)]
  refine Leaves.of_rd (Leaves.of_rd ?_)
  change Leaves (pure (256 * (c .description ((bs.offset i + 1 : ℕ) : ℤ)).toNat +
    (c .description (bs.offset i : ℤ)).toNat, _)) _ _ _ _
  rw [hsize]
  exact leaves_pure _

/-- The rest of the description holds the beacon. -/
theorem size_le_bytesLeft (hi : i < bs.list.length) :
    (bs.list.get ⟨i, hi⟩).size ≤ ((bs.state buffer i).advance 2).bytesLeft := by
  have hoffset := Beacons.offset_succ hi
  have hle := Beacons.offset_le hi
  simp only [Beacons.state, State.advance]
  omega

theorem state_succ (hi : i < bs.list.length) :
    (((bs.state buffer i).advance 2).advance (bs.list.get ⟨i, hi⟩).size).count =
      bs.state buffer (i + 1) := by
  have hoffset := Beacons.offset_succ hi
  have hsucc : buffer.ScanResultcount + UInt32.ofNat i + 1 =
      buffer.ScanResultcount + UInt32.ofNat (i + 1) := by
    rw [UInt32.add_assoc, UInt32.ofNat_add]
    rfl
  simp only [Beacons.state, State.advance, State.count, State.mk.injEq]
  exact ⟨by omega, by omega, hsucc⟩

variable (hroom : (buffer.ScanResultcount.toNat + bs.list.length) * L.sizeofItem ≤
  buffer.ScanResulMuxsize.toNat)

include hroom

/-- The buffer has room for item `i`. -/
theorem room_of_lt (hi : i < bs.list.length) :
    (buffer.ScanResultcount.toNat + i + 1) * L.sizeofItem ≤ buffer.ScanResulMuxsize.toNat :=
  (Nat.mul_le_mul_right _ (by omega)).trans hroom

theorem toNat_count (hi : i ≤ bs.list.length) :
    (buffer.ScanResultcount + UInt32.ofNat i).toNat = buffer.ScanResultcount.toNat + i := by
  have hsize : 1 ≤ L.sizeofItem := by
    have hsize := L.size
    omega
  have hle := (Nat.le_mul_of_pos_right _ hsize).trans hroom
  have hlt := buffer.ScanResulMuxsize.toNat_lt
  rw [UInt32.toNat_add, UInt32.toNat_ofNat']
  omega

variable (stack) in
/-- One call of `InterruptScanResult` parses one beacon. -/
theorem leaves_interruptScanResult (hc : window (c .description) 0 bs.encode.length = bs.encode)
    (hinfo : buffer.ScanResultInfo ≠ none) (hi : i < bs.list.length) :
    Leaves (interruptScanResult L.store L.sizeofItem buffer stack (bs.state buffer i)) c
      (WLAN_STATUS_SUCCESS, bs.state buffer (i + 1))
      (.item (buffer.ScanResultcount.toNat + i))
      (stored L stack bs c i hi (c (.item (buffer.ScanResultcount.toNat + i)))) := by
  obtain ⟨-, hbody⟩ := Beacons.window_beacon hc hi
  have hcount := toNat_count hroom hi.le
  have hitem : HasItem L.sizeofItem buffer (buffer.ScanResultcount + UInt32.ofNat i) := by
    have hroom := room_of_lt hroom hi
    rw [HasItem, hcount, Nat.mod_eq_of_lt (hroom.trans_lt buffer.ScanResulMuxsize.toNat_lt)]
    exact hroom
  have hfits : ¬ ((bs.list.get ⟨i, hi⟩).size = 0 ∨
      ((bs.state buffer i).advance 2).bytesLeft < (bs.list.get ⟨i, hi⟩).size ∨
        buffer.ScanResultInfo = none) := by
    rintro (h | h | h)
    · have hpos : 19 ≤ (bs.list.get ⟨i, hi⟩).size := Nat.le_add_right _ _
      omega
    · exact absurd (size_le_bytesLeft hi) (Nat.not_le_of_lt h)
    · exact hinfo h
  unfold interruptScanResult
  refine (leaves_beaconSize _ hc hi).bind fun c1 hc1 hframe1 => ?_
  have hdesc1 : c1 .description = c .description := description_eq hframe1 rfl
  dsimp only
  rw [if_neg hfits, if_pos (show HasItem L.sizeofItem buffer
    ((bs.state buffer i).advance 2).ScanResultcount from hitem)]
  change Leaves (parzeBSSDescription L.store stack (buffer.ScanResultcount + UInt32.ofNat i).toNat
    (bs.start i) _ >>= _) _ _ _ _
  rw [hcount]
  refine (leaves_parzeBSSDescription hdesc1 hbody).bind fun c2 hc2 _ => ?_
  rw [if_pos rfl, state_succ]
  refine (leaves_pure _).congr ?_
  rw [hc2, hc1, memory_eq hframe1]
  rfl

omit hroom in
theorem stored_congr {c' : Cells Buf UInt8} (hdesc : c' .description = c .description)
    (hmemory : c' .memory = c .memory) (hi : i < bs.list.length) :
    stored L stack bs c' i hi = stored L stack bs c i hi := by
  funext m
  rw [stored, stored, hdesc, hmemory]

omit hroom in
theorem state_zero : (⟨0, bs.rsp.BSSDescriptSize.toNat, buffer.ScanResultcount⟩ : State) =
    bs.state buffer 0 := by
  have hsize : bs.rsp.BSSDescriptSize.toNat = bs.encode.length := by
    have hlt : bs.encode.length < 2 ^ 16 := bs.size_lt
    rw [Beacons.rsp, UInt16.toNat_ofNat', Nat.mod_eq_of_lt hlt]
  rw [Beacons.state, hsize]
  exact congrArg (State.mk 0 _) (UInt32.add_zero _).symm

/-- What the loop has done after `n` beacons. -/
structure Parsed (L : Layout) (stack : Stack) (bs : Beacons) (buffer : ResultBuffer)
    (c : Cells Buf UInt8) (n : ℕ) : Prop where
  state : (beacons L.store L.sizeofItem buffer stack bs.rsp n).result c = bs.state buffer n
  item : ∀ i (hi : i < bs.list.length), i < n →
    (beacons L.store L.sizeofItem buffer stack bs.rsp n).exec c (.item (buffer.ScanResultcount.toNat + i)) =
      stored L stack bs c i hi (c (.item (buffer.ScanResultcount.toNat + i)))
  frame : ∀ a, (∀ i < n, a ≠ .item (buffer.ScanResultcount.toNat + i)) →
    (beacons L.store L.sizeofItem buffer stack bs.rsp n).exec c a = c a

/-- Beacon after beacon, each into the next item. -/
theorem parsed (hc : window (c .description) 0 bs.encode.length = bs.encode)
    (hinfo : buffer.ScanResultInfo ≠ none) {n : ℕ} (hn : n ≤ bs.list.length) :
    Parsed L stack bs buffer c n := by
  induction n with
  | zero =>
    refine ⟨?_, fun i _ hi => absurd hi (Nat.not_lt_zero i), fun a _ => rfl⟩
    rw [beacons, result_pure, state_zero]
  | succ n ih =>
    have ih := ih (Nat.le_of_succ_le hn)
    have hdesc : (beacons L.store L.sizeofItem buffer stack bs.rsp n).exec c .description = c .description :=
      ih.frame _ fun _ _ => (item_ne _).symm
    have hmemory : (beacons L.store L.sizeofItem buffer stack bs.rsp n).exec c .memory = c .memory :=
      ih.frame _ fun _ _ => memory_ne_item _
    have hitem : (beacons L.store L.sizeofItem buffer stack bs.rsp n).exec c
        (.item (buffer.ScanResultcount.toNat + n)) =
          c (.item (buffer.ScanResultcount.toNat + n)) := by
      refine ih.frame _ fun i hi heq => ?_
      rw [Buf.item.injEq] at heq
      omega
    have hdescribed : window ((beacons L.store L.sizeofItem buffer stack bs.rsp n).exec c .description) 0
        bs.encode.length = bs.encode := by
      rw [hdesc, hc]
    have hstep := leaves_interruptScanResult stack hroom hdescribed hinfo hn
    have hleft : (bs.state buffer n).bytesLeft ≠ 0 := by
      have hoffset := Beacons.offset_succ hn
      have hle := Beacons.offset_le hn
      change bs.encode.length - bs.offset n ≠ 0
      omega
    rw [stored_congr hdesc hmemory, hitem] at hstep
    have hresult : (beacons L.store L.sizeofItem buffer stack bs.rsp (n + 1)).result c = bs.state buffer (n + 1) := by
      rw [beacons, result_bind, ih.state, if_neg hleft, result_bind, hstep.result]
      rfl
    have hexec : (beacons L.store L.sizeofItem buffer stack bs.rsp (n + 1)).exec c =
        (interruptScanResult L.store L.sizeofItem buffer stack (bs.state buffer n)).exec
          ((beacons L.store L.sizeofItem buffer stack bs.rsp n).exec c) := by
      rw [beacons, exec_bind, ih.state, if_neg hleft, exec_bind]
      rfl
    refine ⟨hresult, fun i hi hlt => ?_, fun a ha => ?_⟩
    · rw [hexec]
      rcases Nat.lt_succ_iff_lt_or_eq.mp hlt with hlt | rfl
      · rw [hstep.frame _ fun heq => by rw [Buf.item.injEq] at heq; omega, ih.item i hi hlt]
      · exact hstep.here
    · rw [hexec, hstep.frame a (ha n (Nat.lt_succ_self n)),
        ih.frame a fun i hi => ha i (Nat.lt_succ_of_lt hi)]

omit hroom in
theorem toNat_NumberOfSets : bs.rsp.NumberOfSets.toNat = bs.list.length := by
  rw [Beacons.rsp, UInt8.toNat_ofNat', Nat.mod_eq_of_lt bs.sets_lt]

/-- The item of a beacon comes out right exactly when the beacon is good. -/
theorem item_holds_iff (hc : window (c .description) 0 bs.encode.length = bs.encode)
    (hinfo : buffer.ScanResultInfo ≠ none) (hfew : bs.list.length ≤ MRVDRV_MAX_BSSID_LIST)
    (hi : i < bs.list.length) : Holds L (bs.list.get ⟨i, hi⟩)
      ((wlanparserScanResult L.store L.sizeofItem buffer stack bs.rsp).exec c
        (.item (buffer.ScanResultcount.toNat + i))) ↔
      Good L (bs.list.get ⟨i, hi⟩) (c .description)
        ((bs.list.get ⟨i, hi⟩).wildByte stack (c .memory) (bs.start i)) (bs.start i)
          (c (.item (buffer.ScanResultcount.toNat + i))) := by
  have hexec : (wlanparserScanResult L.store L.sizeofItem buffer stack bs.rsp).exec c =
      (beacons L.store L.sizeofItem buffer stack bs.rsp bs.list.length).exec c := by
    rw [wlanparserScanResult, toNat_NumberOfSets, if_neg (Nat.not_lt_of_le hfew), exec_bind,
      exec_pure]
  rw [hexec, (parsed hroom hc hinfo le_rfl).item i hi hi]
  exact holds_iff (Beacons.window_beacon hc hi).2

variable (stack) in
/-- A list that is not too long is parsed to its end. -/
theorem result_wlanparserScanResult
    (hc : window (c .description) 0 bs.encode.length = bs.encode)
    (hinfo : buffer.ScanResultInfo ≠ none) (hfew : bs.list.length ≤ MRVDRV_MAX_BSSID_LIST) :
    (wlanparserScanResult L.store L.sizeofItem buffer stack bs.rsp).result c =
      (WLAN_STATUS_SUCCESS, buffer.ScanResultcount.toNat + bs.list.length) := by
  rw [wlanparserScanResult, toNat_NumberOfSets, if_neg (Nat.not_lt_of_le hfew), result_bind,
    (parsed hroom hc hinfo le_rfl).state, result_pure]
  exact congrArg _ (toNat_count hroom le_rfl)

omit hroom in
/-- A list that is too long is refused. -/
theorem result_of_many (hmany : MRVDRV_MAX_BSSID_LIST < bs.list.length) :
    ((wlanparserScanResult L.store L.sizeofItem buffer stack bs.rsp).result c).1 = WLAN_STATUS_FAILURE := by
  rw [wlanparserScanResult, toNat_NumberOfSets, if_pos hmany, result_pure]

omit hroom in
/-- The parser makes an item of each beacon exactly when there are no more than 32 of them,
    and each is one that comes out right. -/
theorem decodes_iff (hc : window (c .description) 0 bs.encode.length = bs.encode)
    (hinfo : buffer.ScanResultInfo ≠ none)
    (hroom : (buffer.ScanResultcount.toNat + bs.list.length) * L.sizeofItem ≤
      buffer.ScanResulMuxsize.toNat) :
    Decodes L stack buffer bs c ↔ bs.list.length ≤ MRVDRV_MAX_BSSID_LIST ∧
      ∀ i (hi : i < bs.list.length), Good L (bs.list.get ⟨i, hi⟩) (c .description)
        ((bs.list.get ⟨i, hi⟩).wildByte stack (c .memory) (bs.start i)) (bs.start i)
          (c (.item (buffer.ScanResultcount.toNat + i))) := by
  constructor
  · intro h
    have hfew : bs.list.length ≤ MRVDRV_MAX_BSSID_LIST := by
      by_contra hmany
      have hstatus := h.status
      rw [result_of_many (Nat.lt_of_not_le hmany)] at hstatus
      exact absurd hstatus (by decide)
    exact ⟨hfew, fun i hi => (item_holds_iff hroom hc hinfo hfew hi).mp (h.items i hi)⟩
  · rintro ⟨hfew, hgood⟩
    have hresult := result_wlanparserScanResult stack hroom hc hinfo hfew
    refine ⟨?_, ?_, fun i hi => (item_holds_iff hroom hc hinfo hfew hi).mpr (hgood i hi)⟩
    · rw [hresult]
    · rw [hresult]

end Loop

/-! Networks with and without encryption -/

section Networks

/-- The offsets of a compiler that gives an enumeration one byte. -/
def itemLayout : Layout where
  offset
    | .MacAddress => 0
    | .SsidLength => 8
    | .Ssid => 12
    | .Privacy => 44
    | .Rssi => 48
    | .Channel => 52
    | .InfrastructureMode => 57
    | .SupportedRates => 58
    | .DataRates => 72
    | .Security => 86
  enumPad := 0
  sizeofItem := 88
  ssidLength := by decide
  ssid := rfl
  privacy := rfl
  rssi := by decide
  channel := by decide
  infrastructureMode := by decide
  supportedRates := by decide
  dataRates := by decide
  security := by decide
  size := by decide

def oneItem : ResultBuffer := ⟨some 0, 88, 0⟩

/-- A memory with this description, and the same byte everywhere else. -/
def memoryWith (bytes : List UInt8) (v : UInt8) : Cells Buf UInt8
  | .description, i => bytes.getD i.toNat 0
  | _, _ => v

/-- A beacon on channel 6, with an RSN element. -/
def rsnNetwork : Beacon where
  mac := #v[2, 2, 2, 2, 2, 2]
  rssi := 60
  timestamp := Vector.replicate 8 0
  interval := 100
  capability := 0x11
  elements := [⟨DS_PARAM_SET, [6], by decide⟩, ⟨RSN_IE, [1, 0], by decide⟩]
  rates := by decide
  size_lt := by decide

/-- One without encryption. -/
def openNetwork : Beacon where
  mac := #v[3, 3, 3, 3, 3, 3]
  rssi := 60
  timestamp := Vector.replicate 8 0
  interval := 100
  capability := 0x01
  elements := [⟨SSID, [97, 98], by decide⟩]
  rates := by decide
  size_lt := by decide

def rsnResponse : Beacons := ⟨[rsnNetwork], by decide, by decide⟩
def openResponse : Beacons := ⟨[openNetwork], by decide, by decide⟩

/-- The network with an RSN element is decoded when `pCap` points to a byte that suits it. -/
theorem rsnResponse_decodes : Decodes itemLayout (fun _ => 0) oneItem rsnResponse
    (memoryWith rsnResponse.encode 0x10) := by
  refine (decodes_iff (by decide) (by decide) (by decide)).mpr ⟨by decide, fun i hi => ?_⟩
  have hzero : i = 0 := Nat.lt_one_iff.mp hi
  subst hzero
  have hgood : Good itemLayout rsnNetwork ((memoryWith rsnResponse.encode 0x10) .description)
      (rsnNetwork.wildByte (fun _ => 0) ((memoryWith rsnResponse.encode 0x10) .memory)
        (rsnResponse.start 0)) (rsnResponse.start 0)
      ((memoryWith rsnResponse.encode 0x10) (.item (oneItem.ScanResultcount.toNat + 0))) :=
    ⟨by decide, by decide, fun h => absurd h (List.cons_ne_nil _ _), fun _ => .inl (by decide)⟩
  exact hgood

/-- The network without encryption is stored as one with `WEP`. -/
theorem openResponse_not_decodes : ¬ Decodes itemLayout (fun _ => 0) oneItem openResponse
    (memoryWith openResponse.encode 0) := by
  intro h
  have hgood := (item_holds_iff (L := itemLayout) (by decide) (by decide) (by decide) (by decide)
    (by decide)).mp (h.items 0 (by decide))
  have helements := hgood.elements (List.cons_ne_nil _ _)
  exact absurd helements (by decide)

end Networks

end ScanItems

end Wlan
