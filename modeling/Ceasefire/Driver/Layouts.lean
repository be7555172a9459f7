/-
# The structures of the device as bytes: `driver/inc/types.h`

The structures that requests bring and return, member by member in the order of the header, with
the natural alignment of the compiler or, for `NETWORK_EVENT`, packed.  The sizes and offsets are
those that the comments of the header give.
-/

import Ceasefire.Driver.Diags
import Ceasefire.Driver.Events
import Ceasefire.Lib.Layout

namespace Ceasefire
namespace Driver

open Lib (Codec Members)

def u8 : Codec U8 := .word 0
def u16 : Codec U16 := .word 1
def u32 : Codec U32 := .word 3
def u64 : Codec U64 := .word 7

abbrev RuleInput.Fields : Type :=
  U32 × U32 × BOOLEAN × BOOLEAN × U32 × (Fin MAX_PATH_LENGTH → WCHAR) × U32 × Bytes 16 × Bytes 16 ×
    U32 × U16 × U16 × U32 × U16 × U16

def RuleInput.fields (r : RuleInput) : RuleInput.Fields :=
  (r.ruleId, r.priority, r.enabled, r.isAllow, r.processId, r.processPath, r.protocol,
    r.remoteAddr, r.remoteAddrMask, r.addressFamily, r.remotePort, r.localPort, r.direction,
    r.remotePortEnd, r.localPortEnd)

def RuleInput.ofFields : RuleInput.Fields → RuleInput
  | (ruleId, priority, enabled, isAllow, processId, processPath, protocol, remoteAddr,
      remoteAddrMask, addressFamily, remotePort, localPort, direction, remotePortEnd,
      localPortEnd) =>
    { ruleId, priority, enabled, isAllow, processId, processPath, protocol, remoteAddr,
      remoteAddrMask, addressFamily, remotePort, localPort, direction, remotePortEnd,
      localPortEnd }

/-- The members of `RULE_INPUT` from the offset of `ProcessId` on. -/
def ruleInputRest {start : ℕ} :
    Members start (U32 × (Fin MAX_PATH_LENGTH → WCHAR) × U32 × Bytes 16 × Bytes 16 × U32 × U16 ×
      U16 × U32 × U16 × U16) :=
  .cons u32 <| .cons (u16.array MAX_PATH_LENGTH) <| .cons u32 <| .cons (u8.array 16) <|
    .cons (u8.array 16) <| .cons u32 <| .cons u16 <| .cons u16 <| .cons u32 <| .cons u16 <|
    .last u16

/-- `RULE_INPUT`; the compiler leaves two bytes before `ProcessId`. -/
def ruleInputMembers : Members 0 RuleInput.Fields :=
  .cons u32 <| .cons u32 <| .cons u8 <| .cons u8 <| ruleInputRest

def RULE_INPUT : Codec RuleInput :=
  (Codec.ofMembers ruleInputMembers).mapped RuleInput.fields RuleInput.ofFields fun _ => rfl

example : RULE_INPUT.size = 588 ∧ ruleInputMembers.offsets =
    [0, 4, 8, 9, 12, 16, 536, 540, 556, 572, 576, 578, 580, 584, 586] := by decide

/-- `RULE_ID_INPUT`. -/
def RULE_ID_INPUT : Codec U32 := u32

abbrev ThrottleInput.Fields : Type := U32 × U32 × U32

def ThrottleInput.fields (t : ThrottleInput) : ThrottleInput.Fields :=
  (t.processId, t.rateUpBps, t.rateDownBps)

def ThrottleInput.ofFields : ThrottleInput.Fields → ThrottleInput
  | (processId, rateUpBps, rateDownBps) => { processId, rateUpBps, rateDownBps }

def throttleInputMembers : Members 0 ThrottleInput.Fields :=
  .cons u32 <| .cons u32 <| .last u32

def THROTTLE_INPUT : Codec ThrottleInput :=
  (Codec.ofMembers throttleInputMembers).mapped ThrottleInput.fields ThrottleInput.ofFields
    fun _ => rfl

abbrev NetworkEventBuffer.Fields : Type :=
  U64 × U32 × U32 × (Fin MAX_PATH_LENGTH → WCHAR) × U32 × Bytes 16 × Bytes 16 × U16 × U16 ×
    BOOLEAN × U8 × U32 × U64 × U64 × U32 × U32

def NetworkEventBuffer.fields (e : NetworkEventBuffer) : NetworkEventBuffer.Fields :=
  (e.timestamp, e.processId, e.eventType, e.processPath, e.protocol, e.localAddr, e.remoteAddr,
    e.localPort, e.remotePort, e.allowed, e.padding3, e.matchedRuleId, e.bytesSent,
    e.bytesReceived, e.addressFamily, e.direction)

def NetworkEventBuffer.ofFields : NetworkEventBuffer.Fields → NetworkEventBuffer
  | (timestamp, processId, eventType, processPath, protocol, localAddr, remoteAddr, localPort,
      remotePort, allowed, padding3, matchedRuleId, bytesSent, bytesReceived, addressFamily,
      direction) =>
    { timestamp, processId, eventType, processPath, protocol, localAddr, remoteAddr, localPort,
      remotePort, allowed, padding3, matchedRuleId, bytesSent, bytesReceived, addressFamily,
      direction }

/-- `NETWORK_EVENT`, under `#pragma pack(push, 1)`. -/
def networkEventMembers : Members 0 NetworkEventBuffer.Fields :=
  .cons u64.packed <| .cons u32.packed <| .cons u32.packed <|
    .cons (u16.array MAX_PATH_LENGTH).packed <| .cons u32.packed <| .cons (u8.array 16).packed <|
    .cons (u8.array 16).packed <| .cons u16.packed <| .cons u16.packed <| .cons u8.packed <|
    .cons u8.packed <| .cons u32.packed <| .cons u64.packed <| .cons u64.packed <|
    .cons u32.packed <| .last u32.packed

def NETWORK_EVENT : Codec NetworkEventBuffer :=
  (Codec.ofMembers networkEventMembers).mapped NetworkEventBuffer.fields
    NetworkEventBuffer.ofFields fun _ => rfl

example : NETWORK_EVENT.size = 606 ∧ networkEventMembers.offsets =
    [0, 8, 12, 16, 536, 540, 556, 572, 574, 576, 577, 578, 582, 590, 598, 602] := by decide

abbrev DnsEvent.Fields : Type := U64 × U32 × Bytes 16 × U32 × U16 × Bytes 512

def DnsEvent.fields (e : DnsEvent) : DnsEvent.Fields :=
  (e.timestamp, e.processId, e.remoteAddr, e.addressFamily, e.dataLength, e.data)

def DnsEvent.ofFields : DnsEvent.Fields → DnsEvent
  | (timestamp, processId, remoteAddr, addressFamily, dataLength, data) =>
    { timestamp, processId, remoteAddr, addressFamily, dataLength, data }

def dnsEventMembers : Members 0 DnsEvent.Fields :=
  .cons u64 <| .cons u32 <| .cons (u8.array 16) <| .cons u32 <| .cons u16 <| .last (u8.array 512)

/-- `DNS_EVENT`, whose alignment adds six bytes behind `Data`. -/
def DNS_EVENT : Codec DnsEvent :=
  (Codec.ofMembers dnsEventMembers).mapped DnsEvent.fields DnsEvent.ofFields fun _ => rfl

example : DNS_EVENT.size = 552 ∧ dnsEventMembers.offsets = [0, 8, 12, 28, 32, 34] := by decide

abbrev CfDiags.Fields : Type :=
  U32 × U32 × U32 × U32 × (Fin 12 → U32) × (Fin 12 → U32) × (Fin 2 → U64) × (Fin 2 → U64) ×
    (Fin 2 → U64) × (Fin 2 → U64) × (Fin 2 → U64) × (Fin 2 → U64) × (Fin 12 → U32) ×
    (Fin 12 → U32) × U32 × U32 × (Fin 2 → U64) × (Fin 2 → U64) × (Fin 2 → U64) × (Fin 2 → U32) ×
    (Fin 2 → U32) × (Fin 2 → U32) × (Fin 2 → U32) × U64 × U64 × U64 × U64 × U64 × U64

def CfDiags.fields (d : CfDiags) : CfDiags.Fields :=
  (d.magic, d.version, d.size, d.reserved, d.regStatus, d.calloutId, d.classifyStream,
    d.classifyFlowEst, d.assocOk, d.assocFail, d.flowDelete, d.streamBytesCounted, d.unregStatus,
    d.unregRetries, d.throttleActiveEntries, d.throttleNotifyRemoves, d.inTransportClassify,
    d.inTransportPermit, d.inTransportBlock, d.inTransportRegStatus, d.inTransportCalloutId,
    d.inTransportUnregStatus, d.inTransportUnregRetries, d.pacingHeld, d.pacingInjected,
    d.pacingInjectFail, d.pacingQueueDrop, d.pacingQueueDepthMax, d.pacingTimerTicks)

def CfDiags.ofFields : CfDiags.Fields → CfDiags
  | (magic, version, size, reserved, regStatus, calloutId, classifyStream, classifyFlowEst,
      assocOk, assocFail, flowDelete, streamBytesCounted, unregStatus, unregRetries,
      throttleActiveEntries, throttleNotifyRemoves, inTransportClassify, inTransportPermit,
      inTransportBlock, inTransportRegStatus, inTransportCalloutId, inTransportUnregStatus,
      inTransportUnregRetries, pacingHeld, pacingInjected, pacingInjectFail, pacingQueueDrop,
      pacingQueueDepthMax, pacingTimerTicks) =>
    { magic, version, size, reserved, regStatus, calloutId, classifyStream, classifyFlowEst,
      assocOk, assocFail, flowDelete, streamBytesCounted, unregStatus, unregRetries,
      throttleActiveEntries, throttleNotifyRemoves, inTransportClassify, inTransportPermit,
      inTransportBlock, inTransportRegStatus, inTransportCalloutId, inTransportUnregStatus,
      inTransportUnregRetries, pacingHeld, pacingInjected, pacingInjectFail, pacingQueueDrop,
      pacingQueueDepthMax, pacingTimerTicks }

def cfDiagsMembers : Members 0 CfDiags.Fields :=
  .cons u32 <| .cons u32 <| .cons u32 <| .cons u32 <| .cons (u32.array 12) <|
    .cons (u32.array 12) <| .cons (u64.array 2) <| .cons (u64.array 2) <| .cons (u64.array 2) <|
    .cons (u64.array 2) <| .cons (u64.array 2) <| .cons (u64.array 2) <| .cons (u32.array 12) <|
    .cons (u32.array 12) <| .cons u32 <| .cons u32 <| .cons (u64.array 2) <|
    .cons (u64.array 2) <| .cons (u64.array 2) <| .cons (u32.array 2) <| .cons (u32.array 2) <|
    .cons (u32.array 2) <| .cons (u32.array 2) <| .cons u64 <| .cons u64 <| .cons u64 <|
    .cons u64 <| .cons u64 <| .last u64

def CF_DIAGS : Codec CfDiags :=
  (Codec.ofMembers cfDiagsMembers).mapped CfDiags.fields CfDiags.ofFields fun _ => rfl

-- `CfDiagInit` writes the size of the structure
example : cfDiagInit.size = BitVec.ofNat 32 CF_DIAGS.size := by decide +kernel

end Driver
end Ceasefire
