/-
# Connection events: `service/src/driver/converter.rs`, `DriverEvent::to_network_event`

The driver reports a connection as it has seen it, and the service reads addresses, protocol,
direction and process path out of the report.  The path is turned from the form of the kernel,
`\Device\HarddiskVolume3\...`, into the form with a drive letter: by the device names of the
drives, or by the number of the volume, or not at all.

The timestamp, taken from the clock, and the name of the process, the last component of its
path, are left out.
-/

import Ceasefire.Base.Utf16
import Ceasefire.Driver.AleAuth
import Ceasefire.Service.Converter

namespace Ceasefire
namespace Service

open Driver (Bytes WidePath load32 CF_ADDR_FAMILY_V6)
open Text (toAsciiLowercase)

def EVENT_TYPE_TCP_FLOW_CLOSE : U32 := 1

/-- `models.rs`, `EventAction`. -/
inductive EventAction
  | allow
  | block
  | close
  deriving DecidableEq, Repr

/-- `models.rs`, `NetworkEvent`. -/
structure NetworkEvent where
  action : EventAction
  localAddr : String
  localPort : U16
  remoteAddr : String
  remotePort : U16
  protocol : Protocol
  direction : Direction
  processId : Option U32
  processPath : Option String
  bytesSent : Option U64
  bytesReceived : Option U64
  packetsSent : Option U64
  packetsReceived : Option U64
  ruleId : Option U32

/-- `GetLogicalDrives`, and the names that `QueryDosDeviceW` gives a drive. -/
structure Drives where
  mask : U32
  devices : Char → List (List Char)

/-! ## Paths -/

/-- `DriverEvent::wchar_to_string`. -/
def wcharToString (wchars : WidePath) : Option (List Char) :=
  if wchars.wcs = [] then none else Text.decodeUtf16 wchars.wcs

/-- `query_dos_device_path`. -/
def queryDosDevicePath (drives : Drives) (ntPath : List Char) : Option (List Char) :=
  (List.range 26).findSome? fun i =>
    if drives.mask.getLsbD i then
      let drive := Char.ofNat (65 + i)
      (drives.devices drive).findSome? fun devicePath =>
        if devicePath ≠ [] ∧ devicePath.length ≤ ntPath.length ∧
            toAsciiLowercase (ntPath.take devicePath.length) = toAsciiLowercase devicePath then
          some (drive :: ':' :: ntPath.drop devicePath.length)
        else none
    else none

/-- The digits of `u32::from_str`, with the overflow check after each. -/
def parseDigitsU32 (acc : ℕ) : List Char → Option ℕ
  | [] => some acc
  | c :: cs => do
      let d ← Text.toDigit 10 c
      if acc * 10 + d < 2 ^ 32 then parseDigitsU32 (acc * 10 + d) cs else none

/-- `u32::from_str`. -/
def parseU32 : List Char → Option U32
  | [] => none
  | ['+'] => none
  | '+' :: cs => (parseDigitsU32 0 cs).map (BitVec.ofNat 32)
  | cs => (parseDigitsU32 0 cs).map (BitVec.ofNat 32)

/-- `extract_volume_number`. -/
def extractVolumeNumber (lowerNtPath : List Char) : Option U32 := do
  let rest ← "\\device\\harddiskvolume".toList.isPrefixOf? lowerNtPath
  parseU32 (rest.takeWhile (· != '\\'))

/-- The letter that is guessed for a volume; the arithmetic of `u8` wraps around. -/
def driveLetter (volumeNum : U32) : Char :=
  if volumeNum = 1 ∨ volumeNum = 3 then 'C'
  else if volumeNum = 2 ∨ volumeNum = 4 then 'D'
  else if volumeNum = 5 then 'E'
  else if volumeNum = 6 then 'F'
  else Char.ofNat ((volumeNum - 1).setWidth 8 + 67 : U8).toNat

/-- The fallback of `convert_nt_path_to_dos`: the letter of the volume before the rest of the
path in lower case. -/
def guessDosPath (lower : List Char) : Option (List Char) := do
  let volumeNum ← extractVolumeNumber lower
  let start := "\\device\\harddiskvolume".toList ++ Nat.toDigits 10 volumeNum.toNat
  let remaining ← start.isPrefixOf? lower
  pure (driveLetter volumeNum :: ':' :: remaining)

/-- `convert_nt_path_to_dos`. -/
def convertNtPathToDos (drives : Drives) (ntPath : List Char) : Option (List Char) :=
  if ntPath[1]? = some ':' then some ntPath
  else
    let lower := toAsciiLowercase ntPath
    if !"\\device\\".toList.isPrefixOf lower && !"\\??\\".toList.isPrefixOf lower then some ntPath
    else
      match queryDosDevicePath drives ntPath with
      | some dosPath => some dosPath
      | none => some ((guessDosPath lower).getD ntPath)

/-! ## The event -/

/-- `format_v4_bytes`. -/
def formatV4Bytes (buf : Bytes 16) : String :=
  let v := load32 buf 0
  String.ofList (['.'].intercalate
    ([24, 16, 8, 0].map fun i => Nat.toDigits 10 (v >>> i &&& 0xFF).toNat))

/-- `Ipv6Addr::from(buf).to_string()`. -/
def formatV6Bytes (buf : Bytes 16) : String := Net.displayIpAddr (.v6 (Lib.loadBE buf.at 16))

/-- The addresses of an event as strings; every family but 6 is read as 4. -/
def formatAddr (addressFamily : U32) (buf : Bytes 16) : String :=
  if addressFamily = CF_ADDR_FAMILY_V6 then formatV6Bytes buf else formatV4Bytes buf

/-- The protocols that have a name. -/
def protocolOf (protocol : U32) : Protocol :=
  if protocol = 6 then .tcp
  else if protocol = 17 then .udp
  else if protocol = 1 then .icmp
  else if protocol = 58 then .icmpv6
  else .any

/-- `DriverEvent::to_network_event`, which has no error. -/
def toNetworkEvent (drives : Drives) (event : Driver.NetworkEvent) : NetworkEvent where
  action :=
    if event.eventType = EVENT_TYPE_TCP_FLOW_CLOSE then .close
    else if event.allowed ≠ 0 then .allow
    else .block
  localAddr := formatAddr event.addressFamily event.localAddr
  localPort := event.localPort
  remoteAddr := formatAddr event.addressFamily event.remoteAddr
  remotePort := event.remotePort
  protocol := protocolOf event.protocol
  direction := if event.direction = 1 then .inbound else .outbound
  processId := some event.processId
  processPath :=
    ((wcharToString event.processPath).bind (convertNtPathToDos drives)).map String.ofList
  bytesSent := if event.bytesSent > 0 then some event.bytesSent else none
  bytesReceived := if event.bytesReceived > 0 then some event.bytesReceived else none
  packetsSent := none
  packetsReceived := none
  ruleId := if event.matchedRuleId ≠ 0 then some event.matchedRuleId else none

/-- **The numbers of an IPv4 event are printed as the address.** -/
theorem formatV4Bytes_eq (buf : Bytes 16) :
    formatV4Bytes buf = Net.displayIpAddr (.v4 (load32 buf 0)) := by
  have hoctet : ∀ (v : U32) (i : ℕ), (v >>> i &&& 0xFF).toNat = v.toNat / 2 ^ i % 256 := by
    intro v i
    rw [BitVec.toNat_and, BitVec.toNat_ushiftRight, Nat.shiftRight_eq_div_pow]
    exact Nat.and_two_pow_sub_one_eq_mod (v.toNat / 2 ^ i) 8
  unfold formatV4Bytes Net.displayIpAddr Net.displayIpv4
  simp only [hoctet]

end Service
end Ceasefire
