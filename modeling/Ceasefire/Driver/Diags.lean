/-
# The diagnostics: `driver/src/diag.c`

`s_Diags` is the structure that `IOCTL_GET_DIAGS` hands out: the results of the registrations and
a set of counters.  The functions of `diag.c` each write a field or two with an interlocked
operation, so each of them is one step.  The slots 12 and 13 came later than the arrays of twelve,
and their results are kept in arrays of their own.

No function writes the head of the structure (`DiagCall.headed_apply`), by which the service tells
which layout it reads.
-/

import Ceasefire.Driver.Throttle

namespace Ceasefire
namespace Driver

def CF_DIAGS_MAGIC : U32 := 0x30474944
def CF_DIAGS_VERSION : U32 := 5
abbrev CF_DIAG_SLOT_COUNT : ℕ := 12
def CF_DIAG_SLOT_IN_TRANSPORT : ℕ := 12

/-- `CF_DIAGS`. -/
structure CfDiags where
  magic : U32
  version : U32
  size : U32
  reserved : U32
  regStatus : Fin CF_DIAG_SLOT_COUNT → U32
  calloutId : Fin CF_DIAG_SLOT_COUNT → U32
  classifyStream : Fin 2 → U64
  classifyFlowEst : Fin 2 → U64
  assocOk : Fin 2 → U64
  assocFail : Fin 2 → U64
  flowDelete : Fin 2 → U64
  streamBytesCounted : Fin 2 → U64
  unregStatus : Fin CF_DIAG_SLOT_COUNT → U32
  unregRetries : Fin CF_DIAG_SLOT_COUNT → U32
  throttleActiveEntries : U32
  throttleNotifyRemoves : U32
  inTransportClassify : Fin 2 → U64
  inTransportPermit : Fin 2 → U64
  inTransportBlock : Fin 2 → U64
  inTransportRegStatus : Fin 2 → U32
  inTransportCalloutId : Fin 2 → U32
  inTransportUnregStatus : Fin 2 → U32
  inTransportUnregRetries : Fin 2 → U32
  pacingHeld : U64
  pacingInjected : U64
  pacingInjectFail : U64
  pacingQueueDrop : U64
  pacingQueueDepthMax : U64
  pacingTimerTicks : U64

/-- `CfDiagInit`. -/
def cfDiagInit : CfDiags where
  magic := CF_DIAGS_MAGIC
  version := CF_DIAGS_VERSION
  size := 440
  reserved := 0
  regStatus _ := 0
  calloutId _ := 0
  classifyStream _ := 0
  classifyFlowEst _ := 0
  assocOk _ := 0
  assocFail _ := 0
  flowDelete _ := 0
  streamBytesCounted _ := 0
  unregStatus _ := 0
  unregRetries _ := 0
  throttleActiveEntries := 0
  throttleNotifyRemoves := 0
  inTransportClassify _ := 0
  inTransportPermit _ := 0
  inTransportBlock _ := 0
  inTransportRegStatus _ := 0
  inTransportCalloutId _ := 0
  inTransportUnregStatus _ := 0
  inTransportUnregRetries _ := 0
  pacingHeld := 0
  pacingInjected := 0
  pacingInjectFail := 0
  pacingQueueDrop := 0
  pacingQueueDepthMax := 0
  pacingTimerTicks := 0

/-- `isV6 ? 1 : 0`. -/
def family (isV6 : Bool) : Fin 2 := if isV6 then 1 else 0

/-- The value that an array has at an index, written there. -/
def put {n w : ℕ} (array : Fin n → BitVec w) (i : Fin n) (value : BitVec w) : Fin n → BitVec w :=
  fun j => if j = i then value else array j

/-- `CfDiagBump` of the counter of a family. -/
def bump (counters : Fin 2 → U64) (isV6 : Bool) : Fin 2 → U64 :=
  put counters (family isV6) (counters (family isV6) + 1)

theorem inTransport_lt (slot : Fin 14) (hslot : ¬ slot.val < CF_DIAG_SLOT_IN_TRANSPORT) :
    slot.val - CF_DIAG_SLOT_IN_TRANSPORT < 2 :=
  Nat.sub_lt_left_of_lt_add (Nat.le_of_not_lt hslot) slot.isLt

/-- The index of a slot in the arrays of the inbound transport layers. -/
def inTransportIndex (slot : Fin 14) (hslot : ¬ slot.val < CF_DIAG_SLOT_IN_TRANSPORT) : Fin 2 :=
  ⟨slot.val - CF_DIAG_SLOT_IN_TRANSPORT, inTransport_lt slot hslot⟩

/-- `CfDiagRecordRegister`. -/
def cfDiagRecordRegister (slot : Fin 14) (status calloutId : U32) (d : CfDiags) : CfDiags :=
  if h : slot.val < CF_DIAG_SLOT_IN_TRANSPORT then
    { d with
      regStatus := put d.regStatus ⟨slot.val, h⟩ status
      calloutId := put d.calloutId ⟨slot.val, h⟩ calloutId }
  else
    { d with
      inTransportRegStatus := put d.inTransportRegStatus (inTransportIndex slot h) status
      inTransportCalloutId := put d.inTransportCalloutId (inTransportIndex slot h) calloutId }

/-- `CfDiagRecordUnregister`. -/
def cfDiagRecordUnregister (slot : Fin 14) (status retries : U32) (d : CfDiags) : CfDiags :=
  if h : slot.val < CF_DIAG_SLOT_IN_TRANSPORT then
    { d with
      unregStatus := put d.unregStatus ⟨slot.val, h⟩ status
      unregRetries := put d.unregRetries ⟨slot.val, h⟩ retries }
  else
    { d with
      inTransportUnregStatus := put d.inTransportUnregStatus (inTransportIndex slot h) status
      inTransportUnregRetries := put d.inTransportUnregRetries (inTransportIndex slot h) retries }

/-- The functions of `diag.c` that write `s_Diags`.  `CfDiagPacingQueueDepth` is called under the
lock of the pacing queues, so its loop of compare-and-exchange is one step. -/
inductive DiagCall
  | recordRegister (slot : Fin 14) (status calloutId : U32)
  | recordUnregister (slot : Fin 14) (status retries : U32)
  | classifyStream (isV6 : Bool)
  | classifyFlowEst (isV6 : Bool)
  | assoc (isV6 ok : Bool)
  | flowDelete (isV6 : Bool)
  | streamBytes (isV6 : Bool) (byteCount : U32)
  | bumpThrottleNotifyRemove
  | classifyInTransport (isV6 : Bool)
  | inTransportVerdict (isV6 permitted : Bool)
  | pacingHeld
  | pacingInjected
  | pacingInjectFail
  | pacingQueueDrop
  | pacingQueueDepth (currentBytes : U64)
  | pacingTimerTick
  deriving DecidableEq

def DiagCall.apply (d : CfDiags) : DiagCall → CfDiags
  | .recordRegister slot status calloutId => cfDiagRecordRegister slot status calloutId d
  | .recordUnregister slot status retries => cfDiagRecordUnregister slot status retries d
  | .classifyStream isV6 => { d with classifyStream := bump d.classifyStream isV6 }
  | .classifyFlowEst isV6 => { d with classifyFlowEst := bump d.classifyFlowEst isV6 }
  | .assoc isV6 true => { d with assocOk := bump d.assocOk isV6 }
  | .assoc isV6 false => { d with assocFail := bump d.assocFail isV6 }
  | .flowDelete isV6 => { d with flowDelete := bump d.flowDelete isV6 }
  | .streamBytes isV6 byteCount =>
      { d with
        streamBytesCounted := put d.streamBytesCounted (family isV6)
          (d.streamBytesCounted (family isV6) + byteCount.setWidth 64) }
  | .bumpThrottleNotifyRemove => { d with throttleNotifyRemoves := d.throttleNotifyRemoves + 1 }
  | .classifyInTransport isV6 =>
      { d with inTransportClassify := bump d.inTransportClassify isV6 }
  | .inTransportVerdict isV6 true => { d with inTransportPermit := bump d.inTransportPermit isV6 }
  | .inTransportVerdict isV6 false => { d with inTransportBlock := bump d.inTransportBlock isV6 }
  | .pacingHeld => { d with pacingHeld := d.pacingHeld + 1 }
  | .pacingInjected => { d with pacingInjected := d.pacingInjected + 1 }
  | .pacingInjectFail => { d with pacingInjectFail := d.pacingInjectFail + 1 }
  | .pacingQueueDrop => { d with pacingQueueDrop := d.pacingQueueDrop + 1 }
  | .pacingQueueDepth currentBytes =>
      if currentBytes > d.pacingQueueDepthMax then { d with pacingQueueDepthMax := currentBytes }
      else d
  | .pacingTimerTick => { d with pacingTimerTicks := d.pacingTimerTicks + 1 }

/-- `ThrottleSnapshotActiveCount`. -/
def throttleSnapshotActiveCount (s : ThrottleState) : U32 :=
  if !s.initialized then 0 else s.activeCount

/-- `CfDiagSnapshot`: what is handed out, and what stays. -/
def cfDiagSnapshot (s : ThrottleState) (d : CfDiags) : CfDiags :=
  { d with throttleActiveEntries := throttleSnapshotActiveCount s }

/-- The fields by which the structure is recognised. -/
structure CfDiags.Headed (d : CfDiags) : Prop where
  magic : d.magic = CF_DIAGS_MAGIC
  version : d.version = CF_DIAGS_VERSION
  size : d.size = 440

theorem headed_cfDiagInit : cfDiagInit.Headed := ⟨rfl, rfl, rfl⟩

theorem CfDiags.Headed.recordRegister {d : CfDiags} (h : d.Headed) (slot : Fin 14)
    (status calloutId : U32) : (cfDiagRecordRegister slot status calloutId d).Headed := by
  unfold cfDiagRecordRegister
  split_ifs <;> exact ⟨h.magic, h.version, h.size⟩

theorem CfDiags.Headed.recordUnregister {d : CfDiags} (h : d.Headed) (slot : Fin 14)
    (status retries : U32) : (cfDiagRecordUnregister slot status retries d).Headed := by
  unfold cfDiagRecordUnregister
  split_ifs <;> exact ⟨h.magic, h.version, h.size⟩

/-- **No function writes the head.** -/
theorem DiagCall.headed_apply {d : CfDiags} (h : d.Headed) (call : DiagCall) :
    (call.apply d).Headed := by
  cases call with
  | recordRegister slot status calloutId => exact h.recordRegister slot status calloutId
  | recordUnregister slot status retries => exact h.recordUnregister slot status retries
  | assoc _ ok => cases ok <;> exact ⟨h.magic, h.version, h.size⟩
  | inTransportVerdict _ permitted => cases permitted <;> exact ⟨h.magic, h.version, h.size⟩
  | pacingQueueDepth currentBytes =>
      rw [DiagCall.apply]
      split_ifs <;> exact ⟨h.magic, h.version, h.size⟩
  | _ => exact ⟨h.magic, h.version, h.size⟩

theorem headed_cfDiagSnapshot {d : CfDiags} (h : d.Headed) (s : ThrottleState) :
    (cfDiagSnapshot s d).Headed := ⟨h.magic, h.version, h.size⟩

end Driver
end Ceasefire
