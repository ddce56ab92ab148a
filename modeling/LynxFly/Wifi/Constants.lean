-- SUMMARY: Constants of the wireless driver that several of its parts use.
import Mathlib.Data.Int.Notation
import Mathlib.Data.Nat.Notation

/-!
# Constants of the driver

Status codes, the size of the buffers for the card and other sizes (`wlan_defs.h`), the result of
a command without an error (`host.h`), the size of what goes before a packet (`hostcmd.h`), and
the ids of information elements (`wlan_types.h`).
-/

namespace Wlan

abbrev WLAN_STATUS_SUCCESS : ℤ := 0
abbrev WLAN_STATUS_FAILURE : ℤ := -1

def HostCmd_RESULT_OK : UInt16 := 0

def WLAN_UPLD_SIZE : ℕ := 2312

/-- `sizeof(TxPD)`. -/
def sizeofTxPD : ℕ := 24

abbrev ETH_ALEN : ℕ := 6
abbrev WLAN_MAX_SSID_LENGTH : ℕ := 32
abbrev WLAN_SUPPORTED_RATES : ℕ := 14
abbrev MRVDRV_MAX_BSSID_LIST : ℕ := 32

abbrev SSID : UInt8 := 0
abbrev SUPPORTED_RATES : UInt8 := 1
abbrev DS_PARAM_SET : UInt8 := 3
abbrev RSN_IE : UInt8 := 48
abbrev VENDOR_SPECIFIC_221 : UInt8 := 221
abbrev WPA_IE : UInt8 := VENDOR_SPECIFIC_221

end Wlan
