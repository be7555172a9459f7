/-
# The byte counters of the flows: `driver/src/flow.c` and the stream callouts of `driver/src/wfp.c`

Every TCP flow gets a `FLOW_BYTE_CONTEXT`, when it is established or else at its first data.  The
stream callouts add the data of the flow to it, and `FlowDeleteFn` reports the totals in an event
and frees it.  The callouts of different flows run at once and write by interlocked operations, so
one step is a callout; but a stream callout counts twice, in the context of the flow and in the
diagnostics, and anything may happen in between.  The table by which an unload finds the contexts
is left to `FlowRegistry`: no counter depends on it.

No context is leaked, none is touched after it was freed, each is reported exactly once with the
bytes that were counted for it, and the diagnostics agree with what is counted and reported
(`flowBytes_sound`).
-/

import Mathlib.Data.BitVec
import Mathlib.Tactic.Ring
import Ceasefire.Driver.Diags
import Ceasefire.Driver.Events
import Ceasefire.Driver.FlowTuples
import Ceasefire.Lib.Keyed
import Ceasefire.Lib.Transition

namespace Ceasefire
namespace Driver

def NETWORK_EVENT_TYPE_TCP_FLOW_CLOSE : U32 := 1
def FWP_DIRECTION_OUTBOUND : U32 := 0

namespace AleAddresses

def isV6 : AleAddresses → Bool
  | .v4 .. => false
  | .v6 .. => true

def localAddr : AleAddresses → Bytes 16
  | .v4 l _ => cfAddrSetV4 l
  | .v6 l _ => l

def remoteAddr : AleAddresses → Bytes 16
  | .v4 _ r => cfAddrSetV4 r
  | .v6 _ r => r

end AleAddresses

/-- `isV6 ? CF_ADDR_FAMILY_V6 : CF_ADDR_FAMILY_V4`. -/
def familyOf (isV6 : Bool) : U32 := if isV6 then CF_ADDR_FAMILY_V6 else CF_ADDR_FAMILY_V4

/-! ## The contexts -/

/-- `FLOW_BYTE_CONTEXT`. -/
structure FlowByteContext where
  bytesSent : U64
  bytesReceived : U64
  processId : U32
  protocol : U32
  localAddr : Bytes 16
  remoteAddr : Bytes 16
  localPort : U16
  remotePort : U16
  addressFamily : U32
  direction : U32
  processPath : Fin MAX_PATH_LENGTH → WCHAR

/-- The event of `FlowDeleteFn`. -/
def FlowByteContext.closeEvent (ctx : FlowByteContext) (timestamp : U64) : NetworkEventBuffer :=
  { NetworkEventBuffer.zero with
    timestamp := timestamp
    eventType := NETWORK_EVENT_TYPE_TCP_FLOW_CLOSE
    processId := ctx.processId
    processPath := ctx.processPath
    protocol := ctx.protocol
    localAddr := ctx.localAddr
    remoteAddr := ctx.remoteAddr
    addressFamily := ctx.addressFamily
    localPort := ctx.localPort
    remotePort := ctx.remotePort
    direction := ctx.direction
    allowed := 1
    matchedRuleId := 0
    bytesSent := ctx.bytesSent
    bytesReceived := ctx.bytesReceived }

/-- The copy of a path into a zeroed context: its characters before the first NUL. -/
def copyProcessPath (processPath : WidePath) : Fin MAX_PATH_LENGTH → WCHAR := fun i =>
  if i.val < processPath.wcs.length then processPath.cell i else 0

/-- A context in the pool.  It is known by the number of its allocation; its address may be one
that was freed before. -/
structure PoolContext where
  id : ℕ
  address : U64
  context : FlowByteContext

/-- What the filtering platform keeps of `FwpsFlowAssociateContext0`. -/
structure AttachedContext where
  flowHandle : U64
  isV6 : Bool
  calloutId : U32
  address : U64

/-- A stream callout that has counted its data in the context of the flow, before
`CfDiagStreamBytes`. -/
structure CountedData where
  isV6 : Bool
  byteCount : U32
  deriving DecidableEq

/-- What happened to the contexts and to the events; the driver has no such thing. -/
inductive FlowRecord
  | opened (id : ℕ) (context : FlowByteContext)
  | counted (id : ℕ) (outbound : Bool) (byteCount : U32)
  | closed (id : ℕ) (event : NetworkEventBuffer)
  | authorized (event : NetworkEventBuffer)

/-- The driver with what it has allocated, what the filtering platform has attached, the callouts
in progress, and the events that the service has fetched.  `faulted` when a pointer was used that
is not to a context. -/
structure FlowByteState where
  allocations : ℕ
  pool : List PoolContext
  attached : List AttachedContext
  inProgress : List CountedData
  tuples : FlowTupleTable
  events : EventQueue
  diags : CfDiags
  faulted : Bool
  history : List FlowRecord
  received : List NetworkEventBuffer

/-- What a call to associate a context finds: the address that the pool gives, 0 when it is
exhausted, and whether `FwpsFlowAssociateContext0` succeeds. -/
structure AssociateOutcome where
  address : U64
  succeeded : Bool

namespace FlowByteState

def diag (call : DiagCall) (s : FlowByteState) : FlowByteState :=
  { s with diags := call.apply s.diags }

/-- The context at an address. -/
def contextAt (address : U64) (s : FlowByteState) : Option PoolContext :=
  Lib.findKey PoolContext.address address s.pool

/-- A pointer to a context is used. -/
def touch (address : U64) (s : FlowByteState) : FlowByteState :=
  { s with faulted := s.faulted || (s.contextAt address).isNone }

/-- A stream callout has counted its data. -/
def begin (data : CountedData) (s : FlowByteState) : FlowByteState :=
  { s with inProgress := data :: s.inProgress }

/-- `FlowCtxAllocate` with the fields that are written. -/
def allocate (address : U64) (context : FlowByteContext) (s : FlowByteState) : FlowByteState :=
  { s with
    allocations := s.allocations + 1
    pool := ⟨s.allocations, address, context⟩ :: s.pool }

/-- `FlowCtxFree`. -/
def free (address : U64) (s : FlowByteState) : FlowByteState :=
  { s.touch address with pool := Lib.eraseKey PoolContext.address address s.pool }

end FlowByteState

/-- What `FlowOnTcpConnectionAllowed` and `FlowLazyAssociateAtStream` have in common: a context of
the given contents is attached to the flow. -/
def flowAssociate (flowHandle : Option U64) (isV6 : Bool) (calloutId : U32)
    (context : FlowByteContext) (o : AssociateOutcome) (s : FlowByteState) :
    U32 × FlowByteState :=
  match flowHandle with
  | none => (7, s.diag (.assoc isV6 false))
  | some flowHandle =>
      if o.address = 0 then (2, s.diag (.assoc isV6 false))
      else
        let allocated := s.allocate o.address context
        if !o.succeeded then (4, (allocated.free o.address).diag (.assoc isV6 false))
        else
          (0,
            { allocated.diag (.assoc isV6 true) with
              attached := ⟨flowHandle, isV6, calloutId, o.address⟩ :: s.attached
              history := s.history ++ [.opened s.allocations context] })

/-- `FlowOnTcpConnectionAllowed`. -/
def flowOnTcpConnectionAllowed (flowHandle : Option U64) (isV6 : Bool) (calloutId : U32)
    (processId protocol addressFamily : U32) (addresses : AleAddresses)
    (localPort remotePort : U16) (direction : U32) (processPath : WidePath) (o : AssociateOutcome)
    (s : FlowByteState) : U32 × FlowByteState :=
  flowAssociate flowHandle isV6 calloutId
    { bytesSent := 0
      bytesReceived := 0
      processId := processId
      protocol := protocol
      localAddr := addresses.localAddr
      remoteAddr := addresses.remoteAddr
      localPort := localPort
      remotePort := remotePort
      addressFamily := addressFamily
      direction := direction
      processPath := copyProcessPath processPath } o s

/-- `FlowLazyAssociateAtStream`. -/
def flowLazyAssociateAtStream (flowHandle : Option U64) (isV6 : Bool)
    (processId addressFamily : U32) (addresses : AleAddresses) (localPort remotePort : U16)
    (direction calloutId : U32) (o : AssociateOutcome) (s : FlowByteState) :
    U32 × FlowByteState :=
  flowAssociate flowHandle isV6 calloutId
    { bytesSent := 0
      bytesReceived := 0
      processId := processId
      protocol := PROTOCOL_TCP
      localAddr := addresses.localAddr
      remoteAddr := addresses.remoteAddr
      localPort := localPort
      remotePort := remotePort
      addressFamily := addressFamily
      direction := direction
      processPath := fun _ => 0 } o s

/-- The context with the bytes added to one of its counters. -/
def FlowByteContext.add (outbound : Bool) (byteCount : U32) (ctx : FlowByteContext) :
    FlowByteContext :=
  if outbound then { ctx with bytesSent := ctx.bytesSent + byteCount.setWidth 64 }
  else { ctx with bytesReceived := ctx.bytesReceived + byteCount.setWidth 64 }

def PoolContext.add (outbound : Bool) (byteCount : U32) (c : PoolContext) : PoolContext :=
  { c with context := c.context.add outbound byteCount }

/-- `FlowCountStreamBytes`. -/
def flowCountStreamBytes (flowContext : U64) (outbound : Bool) (byteCount : U32)
    (s : FlowByteState) : FlowByteState :=
  if byteCount = 0 ∨ flowContext = 0 then s
  else
    match s.contextAt flowContext with
    | none => { s with faulted := true }
    | some c =>
        { s with
          pool := Lib.modifyKey PoolContext.address flowContext (.add outbound byteCount) s.pool
          history := s.history ++ [.counted c.id outbound byteCount] }

/-- `FlowDeleteFn`. -/
def flowDeleteFn (isV6 : Bool) (flowContext interruptTime : U64) (s : FlowByteState) :
    FlowByteState :=
  let s := s.diag (.flowDelete isV6)
  if flowContext = 0 then s
  else
    match s.contextAt flowContext with
    | none => { s with faulted := true }
    | some c =>
        let event := c.context.closeEvent interruptTime
        { s.free flowContext with
          events := queueEvent event s.events
          history := s.history ++ [.closed c.id event] }

/-! ## The callouts -/

/-- What a call of `FlowEstablishedCallout` or `FlowEstablishedCalloutV6` gets; `streamCalloutId`
is `s_CalloutIdStream` or `s_CalloutIdStreamV6`. -/
structure FlowEstablished where
  addresses : AleAddresses
  protocol : U8
  localPort : U16
  remotePort : U16
  rawDirection : U32
  flowHandle : Option U64
  metadataProcessId : Option U64
  metadataProcessPath : Option (List U8)
  currentProcessId : U64
  streamCalloutId : U32

namespace FlowEstablished

def processId (call : FlowEstablished) : U32 :=
  let processId := (call.metadataProcessId.getD 0).setWidth 32
  if processId = 0 then call.currentProcessId.setWidth 32 else processId

def direction (call : FlowEstablished) : U32 :=
  if call.rawDirection = FWP_DIRECTION_OUTBOUND then RULE_DIRECTION_OUT else RULE_DIRECTION_IN

def tuple (call : FlowEstablished) : FlowTuple where
  addressFamily := familyOf call.addresses.isV6
  localAddr := call.addresses.localAddr
  localPort := call.localPort
  remoteAddr := call.addresses.remoteAddr
  remotePort := call.remotePort

end FlowEstablished

/-- The five-tuple and the process of a TCP flow are written into the table. -/
def FlowEstablished.record (call : FlowEstablished) (s : FlowByteState) : FlowByteState :=
  if call.protocol.setWidth 32 = PROTOCOL_TCP ∧ call.processId ≠ 0 then
    { s with tuples := flowTupleRecordPid call.tuple call.processId s.tuples }
  else s

/-- `FlowEstablishedCommon`. -/
def flowEstablishedCommon (call : FlowEstablished) (o : AssociateOutcome)
    (classifyOut : ClassifyOut) (s : FlowByteState) : ClassifyOut × FlowByteState :=
  let isV6 := call.addresses.isV6
  let protocol : U32 := call.protocol.setWidth 32
  let s := call.record (s.diag (.classifyFlowEst isV6))
  let classifyOut := { classifyOut with actionType := .permit }
  if call.streamCalloutId = 0 then (classifyOut, s)
  else if protocol ≠ PROTOCOL_TCP then (classifyOut, s)
  else
    (classifyOut,
      (flowOnTcpConnectionAllowed call.flowHandle isV6 call.streamCalloutId call.processId protocol
        (familyOf isV6) call.addresses call.localPort call.remotePort call.direction
        (getProcessPath call.metadataProcessPath) o s).2)

/-- `FWPS_STREAM_DATA`; `send` is the flag `FWPS_STREAM_FLAG_SEND`. -/
structure StreamData where
  send : Bool
  dataLength : U64

/-- What a call of `StreamThrottleCallout` or `StreamThrottleCalloutV6` gets; `streamData` is
`none` when the packet or its data is missing. -/
structure StreamClassify where
  addresses : AleAddresses
  localPort : U16
  remotePort : U16
  flowHandle : Option U64
  metadataProcessId : Option U64
  currentProcessId : U64
  streamData : Option StreamData
  flowContext : U64
  streamCalloutId : U32

/-- The process of data without a context: the metadata's, or for data that is sent the current
one. -/
def StreamClassify.processId (call : StreamClassify) (outbound : Bool) : U32 :=
  let processId := (call.metadataProcessId.getD 0).setWidth 32
  if processId = 0 ∧ outbound ∧ call.currentProcessId > 4 then call.currentProcessId.setWidth 32
  else processId

/-- What `StreamThrottleCommon` does with the data, before `CfDiagStreamBytes`. -/
def streamCounted (call : StreamClassify) (streamData : StreamData) (o : AssociateOutcome)
    (s : FlowByteState) : FlowByteState :=
  let isV6 := call.addresses.isV6
  let byteCount : U32 := streamData.dataLength.setWidth 32
  let outbound := streamData.send
  if call.flowContext = 0 then
    (flowLazyAssociateAtStream call.flowHandle isV6 (call.processId outbound) (familyOf isV6)
      call.addresses call.localPort call.remotePort
      (if outbound then RULE_DIRECTION_OUT else RULE_DIRECTION_IN) call.streamCalloutId o s).2
  else
    -- `ctx->ProcessId` may be read; it has no use when there is a context
    let s := s.touch call.flowContext
    if 0 < byteCount then
      (flowCountStreamBytes call.flowContext outbound byteCount s).begin ⟨isV6, byteCount⟩
    else s

/-- `StreamThrottleCommon` before `CfDiagStreamBytes`. -/
def streamThrottleCommon (call : StreamClassify) (o : AssociateOutcome) (classifyOut : ClassifyOut)
    (s : FlowByteState) : ClassifyOut × FlowByteState :=
  let isV6 := call.addresses.isV6
  let s := s.diag (.classifyStream isV6)
  if classifyOut.rights &&& FWPS_RIGHT_ACTION_WRITE = 0 then (classifyOut, s)
  else
    let classifyOut : ClassifyOut :=
      { rights := classifyOut.rights &&& ~~~FWPS_RIGHT_ACTION_WRITE
        actionType := .permit }
    match call.streamData with
    | none => (classifyOut, s)
    | some streamData => (classifyOut, streamCounted call streamData o s)

/-- The five-tuple of an authorization. -/
def AleClassify.tuple (a : AleClassify) : FlowTuple where
  addressFamily := a.addressFamily
  localAddr := a.localAddr
  localPort := a.localPort
  remoteAddr := a.remoteAddr
  remotePort := a.remotePort

/-- `ProcessAleAuth` in this state. -/
def authorize (g_DefaultAllow : BOOLEAN) (rules : List FirewallRule) (a : AleClassify)
    (classifyOut : ClassifyOut) (s : FlowByteState) : ClassifyOut × FlowByteState :=
  let (classifyOut, event, recorded) := processAleAuth g_DefaultAllow rules a classifyOut
  let s :=
    match recorded with
    | none => s
    | some processId => { s with tuples := flowTupleRecordPid a.tuple processId s.tuples }
  match event with
  | none => (classifyOut, s)
  | some event =>
      (classifyOut,
        { s with
          events := queueEvent event.buffer s.events
          history := s.history ++ [.authorized event.buffer] })

/-! ## Runs -/

inductive FlowByteStep
  /-- A flow is established. -/
  | established (call : FlowEstablished) (o : AssociateOutcome) (classifyOut : ClassifyOut)
  /-- Data of a flow, up to `CfDiagStreamBytes`. -/
  | stream (call : StreamClassify) (o : AssociateOutcome) (classifyOut : ClassifyOut)
  /-- `CfDiagStreamBytes` of a stream callout in progress. -/
  | streamBytes (data : CountedData)
  /-- The filtering platform takes a context off its flow and calls `FlowDeleteFn`. -/
  | delete (address interruptTime : U64)
  /-- A connection is authorized. -/
  | authorize (g_DefaultAllow : BOOLEAN) (rules : List FirewallRule) (a : AleClassify)
      (classifyOut : ClassifyOut)
  /-- The service fetches an event. -/
  | getEvent

namespace FlowByteState

/-- The pool gives out an address that nobody holds. -/
def mayAllocate (s : FlowByteState) (o : AssociateOutcome) : Bool :=
  o.address == 0 || s.pool.all fun c => c.address != o.address

/-- The filtering platform hands a stream callout the context of a flow at its layer, or none. -/
def mayHandOver (s : FlowByteState) (call : StreamClassify) : Bool :=
  call.flowContext == 0 || s.attached.any fun a =>
    a.address == call.flowContext && a.isV6 == call.addresses.isV6

end FlowByteState

/-- One step. -/
def flowByteStep (s : FlowByteState) : FlowByteStep → Option FlowByteState
  | .established call o classifyOut =>
      if s.mayAllocate o then some (flowEstablishedCommon call o classifyOut s).2 else none
  | .stream call o classifyOut =>
      if s.mayAllocate o ∧ s.mayHandOver call then
        some (streamThrottleCommon call o classifyOut s).2
      else none
  | .streamBytes data =>
      if data ∈ s.inProgress then
        some { s.diag (.streamBytes data.isV6 data.byteCount) with
          inProgress := s.inProgress.erase data }
      else none
  | .delete address interruptTime =>
      match Lib.findKey AttachedContext.address address s.attached with
      | none => none
      | some a =>
          some (flowDeleteFn a.isV6 a.address interruptTime
            { s with attached := Lib.eraseKey AttachedContext.address address s.attached })
  | .authorize g_DefaultAllow rules a classifyOut =>
      some (authorize g_DefaultAllow rules a classifyOut s).2
  | .getEvent =>
      some { s with
        events := (getEvent s.events).2
        received := s.received ++ (getEvent s.events).1.toList }

/-- After `DriverEntry`. -/
def FlowByteState.init : FlowByteState :=
  ⟨0, [], [], [], flowTupleInit, eventQueueInit, cfDiagInit, false, [], []⟩

/-! ## What the counters should be -/

namespace FlowRecord

def openedId : FlowRecord → Option ℕ
  | .opened id _ => some id
  | _ => none

def closedId : FlowRecord → Option ℕ
  | .closed id _ => some id
  | _ => none

/-- The event that was queued. -/
def event : FlowRecord → Option NetworkEventBuffer
  | .closed _ event => some event
  | .authorized event => some event
  | _ => none

/-- The bytes that were counted for a context in a direction. -/
def bytes (id : ℕ) (outbound : Bool) : FlowRecord → U64
  | .counted id' outbound' byteCount =>
      if id' = id ∧ outbound' = outbound then byteCount.setWidth 64 else 0
  | _ => 0

/-- The bytes that were reported for a flow of a family. -/
def reported (isV6 : Bool) : FlowRecord → U64
  | .closed _ event =>
      if event.addressFamily = familyOf isV6 then event.bytesSent + event.bytesReceived else 0
  | _ => 0

end FlowRecord

def countedBytes (id : ℕ) (outbound : Bool) (history : List FlowRecord) : U64 :=
  (history.map (FlowRecord.bytes id outbound)).sum

/-- The context with the bytes that were counted for it. -/
def FlowByteContext.counting (ctx : FlowByteContext) (id : ℕ) (history : List FlowRecord) :
    FlowByteContext :=
  { ctx with
    bytesSent := countedBytes id true history
    bytesReceived := countedBytes id false history }

/-- The bytes in a context of a family. -/
def PoolContext.bytes (isV6 : Bool) (c : PoolContext) : U64 :=
  if c.context.addressFamily = familyOf isV6 then c.context.bytesSent + c.context.bytesReceived
  else 0

/-- The bytes that the diagnostics of a family lack. -/
def CountedData.bytes (isV6 : Bool) (data : CountedData) : U64 :=
  if data.isV6 = isV6 then data.byteCount.setWidth 64 else 0

def PoolContext.place (c : PoolContext) : U64 × U32 := (c.address, c.context.addressFamily)

def AttachedContext.place (a : AttachedContext) : U64 × U32 := (a.address, familyOf a.isV6)

/-- **The counters are right:** `safe`, no pointer was used that is not to a context; `attached`,
the contexts in the pool are those that are attached to flows, each at an address of its own;
`once`, every context that was opened is in the pool or was reported, and not twice; `counts` and
`reports`, with the bytes that were counted for it; `diagnostics`, modulo 2^64 the bytes in the
diagnostics, with those of the callouts in progress, are the bytes in the pool and in the reports;
`received`, the service gets the events that were queued, each at most once and in their order. -/
structure FlowBytesSound (s : FlowByteState) : Prop where
  safe : s.faulted = false
  attached : (s.pool.map PoolContext.place).Perm (s.attached.map AttachedContext.place) ∧
    (s.pool.map PoolContext.address).Nodup
  once : (s.history.filterMap FlowRecord.openedId).Perm
      (s.pool.map PoolContext.id ++ s.history.filterMap FlowRecord.closedId) ∧
    (s.history.filterMap FlowRecord.openedId).Nodup
  counts : ∀ c ∈ s.pool, ∃ context, .opened c.id context ∈ s.history ∧
    c.context = context.counting c.id s.history
  reports : ∀ id event, .closed id event ∈ s.history → ∃ context timestamp,
    .opened id context ∈ s.history ∧ event = (context.counting id s.history).closeEvent timestamp
  diagnostics : ∀ isV6,
    s.diags.streamBytesCounted (family isV6) + (s.inProgress.map (CountedData.bytes isV6)).sum =
      (s.pool.map (PoolContext.bytes isV6)).sum + (s.history.map (FlowRecord.reported isV6)).sum
  received : s.received.Sublist (s.history.filterMap FlowRecord.event)

/-! ## The invariant -/

/-- **What every step keeps.** -/
structure FlowBytesInv (s : FlowByteState) : Prop where
  safe : s.faulted = false
  nonzero : ∀ c ∈ s.pool, c.address ≠ 0
  places : (s.pool.map PoolContext.place).Perm (s.attached.map AttachedContext.place)
  addresses : (s.pool.map PoolContext.address).Nodup
  ids : (s.history.filterMap FlowRecord.openedId).Perm
    (s.pool.map PoolContext.id ++ s.history.filterMap FlowRecord.closedId)
  nodup : (s.history.filterMap FlowRecord.openedId).Nodup
  lt : ∀ id ∈ s.history.filterMap FlowRecord.openedId, id < s.allocations
  fresh : ∀ id outbound, s.allocations ≤ id → countedBytes id outbound s.history = 0
  counts : ∀ c ∈ s.pool, ∃ context, .opened c.id context ∈ s.history ∧
    c.context = context.counting c.id s.history
  reports : ∀ id event, .closed id event ∈ s.history → ∃ context timestamp,
    .opened id context ∈ s.history ∧ event = (context.counting id s.history).closeEvent timestamp
  diagnostics : ∀ isV6,
    s.diags.streamBytesCounted (family isV6) + (s.inProgress.map (CountedData.bytes isV6)).sum =
      (s.pool.map (PoolContext.bytes isV6)).sum + (s.history.map (FlowRecord.reported isV6)).sum
  queue : s.events.Delivers s.received (s.history.filterMap FlowRecord.event)

theorem FlowBytesInv.sound {s : FlowByteState} (h : FlowBytesInv s) : FlowBytesSound s :=
  ⟨h.safe, ⟨h.places, h.addresses⟩, ⟨h.ids, h.nodup⟩, h.counts, h.reports, h.diagnostics,
    h.queue.sublist⟩

theorem familyOf_inj {isV6 isV6' : Bool} : familyOf isV6 = familyOf isV6' ↔ isV6 = isV6' := by
  revert isV6 isV6'
  decide

theorem countedBytes_concat (id : ℕ) (outbound : Bool) (history : List FlowRecord)
    (r : FlowRecord) : countedBytes id outbound (history ++ [r]) =
      countedBytes id outbound history + r.bytes id outbound := by
  rw [countedBytes, List.map_append, List.sum_append, List.map_singleton, List.sum_singleton,
    countedBytes]

theorem sum_reported_concat (isV6 : Bool) (history : List FlowRecord) (r : FlowRecord) :
    ((history ++ [r]).map (FlowRecord.reported isV6)).sum =
      (history.map (FlowRecord.reported isV6)).sum + r.reported isV6 := by
  rw [List.map_append, List.sum_append, List.map_singleton, List.sum_singleton]

/-- A record that counts nothing for a context changes nothing about it. -/
theorem counting_concat {id : ℕ} {r : FlowRecord} (hr : ∀ outbound, r.bytes id outbound = 0)
    (ctx : FlowByteContext) (history : List FlowRecord) :
    ctx.counting id (history ++ [r]) = ctx.counting id history := by
  rw [FlowByteContext.counting, countedBytes_concat, countedBytes_concat, hr, hr, add_zero,
    add_zero, FlowByteContext.counting]

/-- The bytes of a record of the same context are added. -/
theorem counting_concat_counted (id : ℕ) (outbound : Bool) (byteCount : U32)
    (ctx : FlowByteContext) (history : List FlowRecord) :
    ctx.counting id (history ++ [.counted id outbound byteCount]) =
      (ctx.counting id history).add outbound byteCount := by
  rw [FlowByteContext.counting, countedBytes_concat, countedBytes_concat]
  cases outbound <;> simp [FlowRecord.bytes, FlowByteContext.add, FlowByteContext.counting]

theorem add_addressFamily (outbound : Bool) (byteCount : U32) (ctx : FlowByteContext) :
    (ctx.add outbound byteCount).addressFamily = ctx.addressFamily := by
  rw [FlowByteContext.add]
  split_ifs <;> rfl

/-- The bytes of one more indication, in the pool and in the callout that has yet to report them. -/
theorem bytes_add (c : PoolContext) {isV6 : Bool} (hfamily : c.context.addressFamily = familyOf isV6)
    (outbound : Bool) (byteCount : U32) (isV6' : Bool) :
    (c.add outbound byteCount).bytes isV6' =
      CountedData.bytes isV6' ⟨isV6, byteCount⟩ + c.bytes isV6' := by
  rw [PoolContext.bytes, PoolContext.bytes, CountedData.bytes, PoolContext.add, add_addressFamily,
    hfamily]
  simp only [familyOf_inj]
  split_ifs
  · rw [FlowByteContext.add]
    split_ifs <;> ring
  · rw [add_zero]

/-- A context may be used while it is in the pool. -/
theorem touch_eq {s : FlowByteState} {address : U64} {c : PoolContext}
    (hc : s.contextAt address = some c) : s.touch address = s := by
  rw [FlowByteState.touch, hc, Option.isNone_some, Bool.or_false]

theorem flowCountStreamBytes_eq {s : FlowByteState} {flowContext : U64} {outbound : Bool}
    {byteCount : U32} {c : PoolContext} (hbytes : byteCount ≠ 0) (hcontext : flowContext ≠ 0)
    (hc : s.contextAt flowContext = some c) :
    flowCountStreamBytes flowContext outbound byteCount s =
      { s with
        pool := Lib.modifyKey PoolContext.address flowContext (.add outbound byteCount) s.pool
        history := s.history ++ [.counted c.id outbound byteCount] } := by
  rw [flowCountStreamBytes, if_neg (not_or.2 ⟨hbytes, hcontext⟩), hc]

theorem flowDeleteFn_eq {s : FlowByteState} {isV6 : Bool} {flowContext interruptTime : U64}
    {c : PoolContext} (hcontext : flowContext ≠ 0) (hc : s.contextAt flowContext = some c) :
    flowDeleteFn isV6 flowContext interruptTime s =
      { s.diag (.flowDelete isV6) with
        pool := Lib.eraseKey PoolContext.address flowContext s.pool
        events := queueEvent (c.context.closeEvent interruptTime) s.events
        history := s.history ++ [.closed c.id (c.context.closeEvent interruptTime)] } := by
  have hc' : (s.diag (.flowDelete isV6)).contextAt flowContext = some c := hc
  unfold flowDeleteFn
  dsimp only
  rw [if_neg hcontext, hc', FlowByteState.free, touch_eq hc']
  rfl

namespace FlowBytesInv

variable {s : FlowByteState}

theorem init : FlowBytesInv .init := by
  refine ⟨rfl, ?_, List.Perm.refl _, List.nodup_nil, List.Perm.refl _, List.nodup_nil, ?_,
    fun _ _ _ => rfl, ?_, ?_, fun _ => ?_, .empty eventQueueInit_holds⟩
  · exact fun _ hc => absurd hc List.not_mem_nil
  · exact fun _ hid => absurd hid List.not_mem_nil
  · exact fun _ hc => absurd hc List.not_mem_nil
  · exact fun _ _ hclosed => absurd hclosed List.not_mem_nil
  · exact BitVec.add_zero _

/-- No diagnostic but that of the bytes matters. -/
theorem diag (h : FlowBytesInv s) (call : DiagCall)
    (hcall : (call.apply s.diags).streamBytesCounted = s.diags.streamBytesCounted) :
    FlowBytesInv (s.diag call) := by
  refine ⟨h.safe, h.nonzero, h.places, h.addresses, h.ids, h.nodup, h.lt, h.fresh, h.counts,
    h.reports, fun isV6 => ?_, h.queue⟩
  have hbytes := h.diagnostics isV6
  rw [← hcall] at hbytes
  exact hbytes

/-- Nor does the table of the tuples. -/
theorem setTuples (h : FlowBytesInv s) (tuples : FlowTupleTable) :
    FlowBytesInv { s with tuples := tuples } :=
  ⟨h.safe, h.nonzero, h.places, h.addresses, h.ids, h.nodup, h.lt, h.fresh, h.counts, h.reports,
    h.diagnostics, h.queue⟩

theorem contextAt_eq_some (h : FlowBytesInv s) {address : U64} {c : PoolContext} :
    s.contextAt address = some c ↔ c ∈ s.pool ∧ c.address = address :=
  Lib.findKey_eq_some h.addresses

/-- What is attached is in the pool. -/
theorem exists_context (h : FlowBytesInv s) {a : AttachedContext} (ha : a ∈ s.attached) :
    ∃ c, s.contextAt a.address = some c ∧ c.context.addressFamily = familyOf a.isV6 := by
  obtain ⟨c, hc, hplace⟩ := List.mem_map.1 (h.places.symm.subset (List.mem_map_of_mem ha))
  obtain ⟨haddress, hfamily⟩ := Prod.mk.inj hplace
  exact ⟨c, h.contextAt_eq_some.2 ⟨hc, haddress⟩, hfamily⟩

theorem attached_addresses (h : FlowBytesInv s) :
    (s.attached.map AttachedContext.address).Nodup := by
  have hperm := h.places.map Prod.fst
  rw [List.map_map, List.map_map] at hperm
  exact hperm.nodup_iff.1 h.addresses

theorem ids_nodup (h : FlowBytesInv s) :
    (s.pool.map PoolContext.id ++ s.history.filterMap FlowRecord.closedId).Nodup :=
  h.ids.nodup_iff.1 h.nodup

theorem id_lt (h : FlowBytesInv s) {c : PoolContext} (hc : c ∈ s.pool) : c.id < s.allocations :=
  h.lt c.id (h.ids.symm.subset (List.mem_append_left _ (List.mem_map_of_mem hc)))

/-- Two contexts of the pool are known by different numbers. -/
theorem eq_of_id (h : FlowBytesInv s) {c c' : PoolContext} (hc : c ∈ s.pool) (hc' : c' ∈ s.pool)
    (hid : c'.id = c.id) : c' = c :=
  List.inj_on_of_nodup_map (List.nodup_append.1 h.ids_nodup).1 hc' hc hid

/-- What was reported is not in the pool. -/
theorem closed_ne (h : FlowBytesInv s) {id : ℕ} {event : NetworkEventBuffer}
    (hclosed : .closed id event ∈ s.history) {c : PoolContext} (hc : c ∈ s.pool) : c.id ≠ id :=
  (List.nodup_append.1 h.ids_nodup).2.2 c.id (List.mem_map_of_mem hc) id
    (List.mem_filterMap.2 ⟨_, hclosed, rfl⟩)

/-- **A context is opened.** -/
theorem opened (h : FlowBytesInv s) {flowHandle address : U64} {isV6 : Bool} {calloutId : U32}
    {context : FlowByteContext} (haddress : address ≠ 0)
    (hfree : ∀ c ∈ s.pool, c.address ≠ address)
    (hfamily : context.addressFamily = familyOf isV6)
    (hsent : context.bytesSent = 0) (hreceived : context.bytesReceived = 0) :
    FlowBytesInv { s.allocate address context with
      attached := ⟨flowHandle, isV6, calloutId, address⟩ :: s.attached
      history := s.history ++ [.opened s.allocations context] } := by
  have hkeep : ∀ (id : ℕ) (ctx : FlowByteContext),
      ctx.counting id (s.history ++ [.opened s.allocations context]) = ctx.counting id s.history :=
    fun id ctx => counting_concat (fun _ => rfl) ctx s.history
  have hself : context = context.counting s.allocations s.history := by
    obtain ⟨sent, received⟩ := context
    obtain ⟨rfl, rfl⟩ := And.intro hsent hreceived
    rw [FlowByteContext.counting, h.fresh _ _ le_rfl, h.fresh _ _ le_rfl]
  refine ⟨h.safe, ?_, ?_, ?_, ?_, ?_, ?_, ?_, ?_, ?_, ?_, ?_⟩ <;>
    dsimp only [FlowByteState.allocate]
  · exact List.forall_mem_cons.2 ⟨haddress, h.nonzero⟩
  · have hplace : PoolContext.place ⟨s.allocations, address, context⟩ =
        AttachedContext.place ⟨flowHandle, isV6, calloutId, address⟩ := by
      rw [PoolContext.place, AttachedContext.place, hfamily]
    show (_ :: s.pool.map PoolContext.place).Perm (_ :: s.attached.map AttachedContext.place)
    rw [hplace]
    exact h.places.cons _
  · refine List.nodup_cons.2 ⟨fun hmem => ?_, h.addresses⟩
    obtain ⟨c, hc, hsame⟩ := List.mem_map.1 hmem
    exact hfree c hc hsame
  · have hids := h.ids.cons s.allocations
    rw [Lib.filterMap_concat_some (f := FlowRecord.openedId) rfl, Lib.filterMap_concat_none rfl]
    exact (List.perm_append_singleton _ _).trans hids
  · rw [Lib.filterMap_concat_some (f := FlowRecord.openedId) rfl]
    refine List.nodup_append.2 ⟨h.nodup, List.nodup_singleton _, fun id hid id' hid' => ?_⟩
    rw [List.mem_singleton.1 hid']
    exact (h.lt id hid).ne
  · intro id hid
    rw [Lib.filterMap_concat_some (f := FlowRecord.openedId) rfl] at hid
    rcases List.mem_append.1 hid with hid | hid
    · exact Nat.lt_succ_of_lt (h.lt id hid)
    · rw [List.mem_singleton.1 hid]
      exact Nat.lt_succ_self _
  · intro id outbound hid
    rw [countedBytes_concat, h.fresh id outbound (Nat.le_of_succ_le hid)]
    rfl
  · refine List.forall_mem_cons.2 ⟨⟨context, List.mem_append_right _ (List.mem_singleton_self _),
      hself.trans (hkeep _ _).symm⟩, fun c hc => ?_⟩
    obtain ⟨ctx, hopened, hctx⟩ := h.counts c hc
    exact ⟨ctx, List.mem_append_left _ hopened, hctx.trans (hkeep _ _).symm⟩
  · intro id event hclosed
    have hold : .closed id event ∈ s.history := by simpa using hclosed
    obtain ⟨ctx, timestamp, hopened, hevent⟩ := h.reports id event hold
    exact ⟨ctx, timestamp, List.mem_append_left _ hopened, by rw [hkeep]; exact hevent⟩
  · intro isV6'
    have hzero : PoolContext.bytes isV6' ⟨s.allocations, address, context⟩ = 0 := by
      rw [PoolContext.bytes, hsent, hreceived]
      split_ifs <;> rfl
    rw [List.map_cons, List.sum_cons, hzero, zero_add, sum_reported_concat]
    exact (h.diagnostics isV6').trans (congrArg _ (add_zero _).symm)
  · rw [Lib.filterMap_concat_none rfl]
    exact h.queue

/-- **Data is counted.** -/
theorem counted (h : FlowBytesInv s) {c : PoolContext} {isV6 : Bool}
    (hc : s.contextAt c.address = some c) (hfamily : c.context.addressFamily = familyOf isV6)
    (outbound : Bool) (byteCount : U32) :
    FlowBytesInv { s with
      pool := Lib.modifyKey PoolContext.address c.address (.add outbound byteCount) s.pool
      inProgress := ⟨isV6, byteCount⟩ :: s.inProgress
      history := s.history ++ [.counted c.id outbound byteCount] } := by
  obtain ⟨hmem, -⟩ := h.contextAt_eq_some.1 hc
  have hother : ∀ {id : ℕ}, c.id ≠ id → ∀ ctx : FlowByteContext,
      ctx.counting id (s.history ++ [.counted c.id outbound byteCount]) =
        ctx.counting id s.history := by
    intro id hid ctx
    refine counting_concat (fun outbound' => ?_) ctx s.history
    rw [FlowRecord.bytes, if_neg fun hsame => hid hsame.1]
  refine ⟨h.safe, ?_, ?_, ?_, ?_, ?_, ?_, ?_, ?_, ?_, ?_, ?_⟩ <;> dsimp only
  · intro c' hc'
    rcases (Lib.mem_modifyKey h.addresses).1 hc' with ⟨hold, -⟩ | ⟨a, ha, -, rfl⟩
    · exact h.nonzero c' hold
    · exact h.nonzero a ha
  · rw [Lib.map_modifyKey (f := PoolContext.add outbound byteCount) fun a => by
      rw [PoolContext.place, PoolContext.add, add_addressFamily, PoolContext.place]]
    exact h.places
  · rw [Lib.map_modifyKey (f := PoolContext.add outbound byteCount) fun _ => rfl]
    exact h.addresses
  · rw [Lib.map_modifyKey (f := PoolContext.add outbound byteCount) fun _ => rfl,
      Lib.filterMap_concat_none rfl, Lib.filterMap_concat_none rfl]
    exact h.ids
  · rw [Lib.filterMap_concat_none rfl]
    exact h.nodup
  · rw [Lib.filterMap_concat_none rfl]
    exact h.lt
  · intro id outbound' hid
    have hne : c.id ≠ id := ((h.id_lt hmem).trans_le hid).ne
    rw [countedBytes_concat, h.fresh id outbound' hid, FlowRecord.bytes,
      if_neg fun hsame => hne hsame.1, add_zero]
  · intro c' hc'
    rcases (Lib.mem_modifyKey h.addresses).1 hc' with ⟨hold, hne⟩ | ⟨a, ha, haddress, rfl⟩
    · obtain ⟨ctx, hopened, hctx⟩ := h.counts c' hold
      have hid : c.id ≠ c'.id := fun hid => hne (congrArg _ (h.eq_of_id hmem hold hid.symm))
      exact ⟨ctx, List.mem_append_left _ hopened, hctx.trans (hother hid ctx).symm⟩
    · obtain ⟨ctx, hopened, hctx⟩ := h.counts a ha
      obtain rfl : a = c := by
        rw [← haddress, h.contextAt_eq_some.2 ⟨ha, rfl⟩] at hc
        exact Option.some.inj hc
      refine ⟨ctx, List.mem_append_left _ hopened, ?_⟩
      rw [PoolContext.add, counting_concat_counted, ← hctx]
  · intro id event hclosed
    have hold : .closed id event ∈ s.history := by simpa using hclosed
    obtain ⟨ctx, timestamp, hopened, hevent⟩ := h.reports id event hold
    exact ⟨ctx, timestamp, List.mem_append_left _ hopened,
      by rw [hother (h.closed_ne hold hmem)]; exact hevent⟩
  · intro isV6'
    have hpool := (Lib.modifyKey_perm_cons (f := PoolContext.add outbound byteCount) h.addresses
      hmem rfl).map (PoolContext.bytes isV6')
    have hsplit := (Lib.perm_cons_eraseKey h.addresses hmem rfl).map (PoolContext.bytes isV6')
    have hdiagnostics := h.diagnostics isV6'
    rw [hsplit.sum_eq, List.map_cons, List.sum_cons] at hdiagnostics
    rw [hpool.sum_eq, List.map_cons, List.sum_cons, List.map_cons, List.sum_cons,
      bytes_add c hfamily, sum_reported_concat, add_left_comm, hdiagnostics]
    show _ = _ + (_ + 0)
    ring
  · rw [Lib.filterMap_concat_none rfl]
    exact h.queue

/-- The callout reports what it has counted. -/
theorem streamBytes (h : FlowBytesInv s) {data : CountedData} (hdata : data ∈ s.inProgress) :
    FlowBytesInv { s.diag (.streamBytes data.isV6 data.byteCount) with
      inProgress := s.inProgress.erase data } := by
  refine ⟨h.safe, h.nonzero, h.places, h.addresses, h.ids, h.nodup, h.lt, h.fresh, h.counts,
    h.reports, fun isV6 => ?_, h.queue⟩
  have hcounter : (DiagCall.apply s.diags
      (.streamBytes data.isV6 data.byteCount)).streamBytesCounted (family isV6) =
        s.diags.streamBytesCounted (family isV6) + data.bytes isV6 := by
    show put _ _ _ _ = _
    rw [put, CountedData.bytes]
    have hfamily : family isV6 = family data.isV6 ↔ data.isV6 = isV6 := by
      cases isV6 <;> cases data.isV6 <;> decide
    simp only [hfamily]
    split_ifs with hsame
    · rw [hsame]
    · rw [add_zero]
  have hdiagnostics := h.diagnostics isV6
  rw [((List.perm_cons_erase hdata).map (CountedData.bytes isV6)).sum_eq, List.map_cons,
    List.sum_cons, ← add_assoc, ← hcounter] at hdiagnostics
  exact hdiagnostics

/-- **A context is reported and freed.** -/
theorem closed (h : FlowBytesInv s) {a : AttachedContext} (ha : a ∈ s.attached) {c : PoolContext}
    (hc : s.contextAt a.address = some c) (timestamp : U64) :
    FlowBytesInv { s with
      attached := Lib.eraseKey AttachedContext.address a.address s.attached
      pool := Lib.eraseKey PoolContext.address a.address s.pool
      events := queueEvent (c.context.closeEvent timestamp) s.events
      history := s.history ++ [.closed c.id (c.context.closeEvent timestamp)] } := by
  obtain ⟨hmem, haddress⟩ := h.contextAt_eq_some.1 hc
  have hpool := Lib.perm_cons_eraseKey h.addresses hmem haddress
  have hattached := Lib.perm_cons_eraseKey h.attached_addresses ha rfl
  have hplace : c.place = a.place := by
    obtain ⟨c', hc', hfamily⟩ := h.exists_context ha
    obtain rfl := Option.some.inj (hc.symm.trans hc')
    rw [PoolContext.place, AttachedContext.place, haddress, hfamily]
  have hkeep : ∀ (id : ℕ) (ctx : FlowByteContext),
      ctx.counting id (s.history ++ [.closed c.id (c.context.closeEvent timestamp)]) =
        ctx.counting id s.history :=
    fun id ctx => counting_concat (fun _ => rfl) ctx s.history
  refine ⟨h.safe, ?_, ?_, Lib.nodup_eraseKey h.addresses, ?_, ?_, ?_, ?_, ?_, ?_, ?_, ?_⟩ <;>
    dsimp only
  · exact fun c' hc' => h.nonzero c' ((Lib.mem_eraseKey h.addresses).1 hc').1
  · have hplaces := (hpool.map PoolContext.place).symm.trans
      (h.places.trans (hattached.map AttachedContext.place))
    rw [List.map_cons, List.map_cons, hplace] at hplaces
    exact hplaces.cons_inv
  · rw [Lib.filterMap_concat_none rfl, Lib.filterMap_concat_some (f := FlowRecord.closedId) rfl]
    refine h.ids.trans (((hpool.map PoolContext.id).append_right _).trans ?_)
    rw [← List.append_assoc]
    exact (List.perm_append_singleton _ _).symm
  · rw [Lib.filterMap_concat_none rfl]
    exact h.nodup
  · rw [Lib.filterMap_concat_none rfl]
    exact h.lt
  · intro id outbound hid
    rw [countedBytes_concat, h.fresh id outbound hid]
    rfl
  · intro c' hc'
    obtain ⟨ctx, hopened, hctx⟩ := h.counts c' ((Lib.mem_eraseKey h.addresses).1 hc').1
    exact ⟨ctx, List.mem_append_left _ hopened, hctx.trans (hkeep _ _).symm⟩
  · intro id event hclosed
    rcases List.mem_append.1 hclosed with hold | hnew
    · obtain ⟨ctx, timestamp', hopened, hevent⟩ := h.reports id event hold
      exact ⟨ctx, timestamp', List.mem_append_left _ hopened, by rw [hkeep]; exact hevent⟩
    · obtain ⟨rfl, rfl⟩ := FlowRecord.closed.inj (List.mem_singleton.1 hnew)
      obtain ⟨ctx, hopened, hctx⟩ := h.counts c hmem
      exact ⟨ctx, timestamp, List.mem_append_left _ hopened, by rw [hkeep, hctx]⟩
  · intro isV6
    have hdiagnostics := h.diagnostics isV6
    rw [(hpool.map (PoolContext.bytes isV6)).sum_eq, List.map_cons, List.sum_cons] at hdiagnostics
    rw [hdiagnostics, sum_reported_concat]
    show PoolContext.bytes isV6 c + _ + _ = _ + (_ + PoolContext.bytes isV6 c)
    ring
  · rw [Lib.filterMap_concat_some (f := FlowRecord.event) rfl]
    exact h.queue.push _

/-- A connection is authorized. -/
theorem authorized (h : FlowBytesInv s) (event : NetworkEvent) :
    FlowBytesInv { s with
      events := queueEvent event.buffer s.events
      history := s.history ++ [.authorized event.buffer] } := by
  have hkeep : ∀ (id : ℕ) (ctx : FlowByteContext),
      ctx.counting id (s.history ++ [.authorized event.buffer]) = ctx.counting id s.history :=
    fun id ctx => counting_concat (fun _ => rfl) ctx s.history
  refine ⟨h.safe, h.nonzero, h.places, h.addresses, ?_, ?_, ?_, ?_, ?_, ?_, ?_, ?_⟩ <;> dsimp only
  · rw [Lib.filterMap_concat_none rfl, Lib.filterMap_concat_none rfl]
    exact h.ids
  · rw [Lib.filterMap_concat_none rfl]
    exact h.nodup
  · rw [Lib.filterMap_concat_none rfl]
    exact h.lt
  · intro id outbound hid
    rw [countedBytes_concat, h.fresh id outbound hid]
    rfl
  · intro c hc
    obtain ⟨ctx, hopened, hctx⟩ := h.counts c hc
    exact ⟨ctx, List.mem_append_left _ hopened, hctx.trans (hkeep _ _).symm⟩
  · intro id event' hclosed
    have hold : .closed id event' ∈ s.history := by simpa using hclosed
    obtain ⟨ctx, timestamp, hopened, hevent⟩ := h.reports id event' hold
    exact ⟨ctx, timestamp, List.mem_append_left _ hopened, by rw [hkeep]; exact hevent⟩
  · intro isV6
    rw [sum_reported_concat]
    exact (h.diagnostics isV6).trans (congrArg _ (add_zero _).symm)
  · rw [Lib.filterMap_concat_some (f := FlowRecord.event) rfl]
    exact h.queue.push event.buffer

/-- The service fetches an event. -/
theorem fetched (h : FlowBytesInv s) :
    FlowBytesInv { s with
      events := (getEvent s.events).2
      received := s.received ++ (getEvent s.events).1.toList } :=
  ⟨h.safe, h.nonzero, h.places, h.addresses, h.ids, h.nodup, h.lt, h.fresh, h.counts, h.reports,
    h.diagnostics, h.queue.pop⟩

/-! ### The functions -/

/-- A context that was not attached is freed again. -/
theorem freed (h : FlowBytesInv s) (address : U64) (context : FlowByteContext) :
    FlowBytesInv ((s.allocate address context).free address) := by
  have hfound : (s.allocate address context).contextAt address =
      some ⟨s.allocations, address, context⟩ := by
    simp [FlowByteState.contextAt, FlowByteState.allocate, Lib.findKey]
  have hfree : (s.allocate address context).free address =
      { s with allocations := s.allocations + 1 } := by
    rw [FlowByteState.free, touch_eq hfound]
    simp [FlowByteState.allocate, Lib.eraseKey]
  rw [hfree]
  exact ⟨h.safe, h.nonzero, h.places, h.addresses, h.ids, h.nodup,
    fun id hid => Nat.lt_succ_of_lt (h.lt id hid),
    fun id outbound hid => h.fresh id outbound (Nat.le_of_succ_le hid), h.counts, h.reports,
    h.diagnostics, h.queue⟩

theorem associate (h : FlowBytesInv s) {o : AssociateOutcome} (hmay : s.mayAllocate o = true)
    (flowHandle : Option U64) {isV6 : Bool} (calloutId : U32) {context : FlowByteContext}
    (hfamily : context.addressFamily = familyOf isV6) (hsent : context.bytesSent = 0)
    (hreceived : context.bytesReceived = 0) :
    FlowBytesInv (flowAssociate flowHandle isV6 calloutId context o s).2 := by
  cases flowHandle with
  | none => exact h.diag _ rfl
  | some flowHandle =>
      rw [flowAssociate]
      dsimp only
      split_ifs with haddress hfailed
      · exact h.diag _ rfl
      · exact (h.freed o.address context).diag _ rfl
      · have hfree : ∀ c ∈ s.pool, c.address ≠ o.address := by
          rw [FlowByteState.mayAllocate, Bool.or_eq_true, beq_iff_eq] at hmay
          simpa using hmay.resolve_left haddress
        exact (h.opened haddress hfree hfamily hsent hreceived).diag (.assoc isV6 true) rfl

theorem record (h : FlowBytesInv s) (call : FlowEstablished) : FlowBytesInv (call.record s) := by
  unfold FlowEstablished.record
  split_ifs
  · exact h.setTuples _
  · exact h

theorem established (h : FlowBytesInv s) (call : FlowEstablished) {o : AssociateOutcome}
    (hmay : s.mayAllocate o = true) (classifyOut : ClassifyOut) :
    FlowBytesInv (flowEstablishedCommon call o classifyOut s).2 := by
  have hrecord := (h.diag (.classifyFlowEst call.addresses.isV6) rfl).record call
  have hmay' : (call.record (s.diag (.classifyFlowEst call.addresses.isV6))).mayAllocate o =
      true := by
    unfold FlowEstablished.record
    split_ifs <;> exact hmay
  unfold flowEstablishedCommon
  dsimp only
  split_ifs
  · exact hrecord
  · exact hrecord
  · exact hrecord.associate hmay' call.flowHandle call.streamCalloutId rfl rfl rfl

/-- The filtering platform hands over a context of the pool. -/
theorem exists_handedOver (h : FlowBytesInv s) {call : StreamClassify}
    (hmay : s.mayHandOver call = true) (hcontext : call.flowContext ≠ 0) :
    ∃ c, c.address = call.flowContext ∧ s.contextAt c.address = some c ∧
      c.context.addressFamily = familyOf call.addresses.isV6 := by
  rw [FlowByteState.mayHandOver, Bool.or_eq_true, beq_iff_eq] at hmay
  obtain ⟨a, ha, hsame⟩ := List.any_eq_true.1 (hmay.resolve_left hcontext)
  rw [Bool.and_eq_true, beq_iff_eq, beq_iff_eq] at hsame
  obtain ⟨c, hc, hfamily⟩ := h.exists_context ha
  have haddress := (h.contextAt_eq_some.1 hc).2
  exact ⟨c, haddress.trans hsame.1, by rw [haddress, hc], by rw [hfamily, hsame.2]⟩

theorem data (h : FlowBytesInv s) {call : StreamClassify} {o : AssociateOutcome}
    (halloc : s.mayAllocate o = true) (hmay : s.mayHandOver call = true)
    (streamData : StreamData) : FlowBytesInv (streamCounted call streamData o s) := by
  unfold streamCounted
  dsimp only
  by_cases hcontext : call.flowContext = 0
  · rw [if_pos hcontext]
    exact h.associate halloc call.flowHandle call.streamCalloutId rfl rfl rfl
  · obtain ⟨c, haddress, hc, hfamily⟩ := h.exists_handedOver hmay hcontext
    rw [if_neg hcontext, ← haddress, touch_eq hc]
    rw [← haddress] at hcontext
    split_ifs with hbytes
    · rw [flowCountStreamBytes_eq ((BitVec.pos_iff_ne_zero _).1 hbytes) hcontext hc]
      exact h.counted hc hfamily streamData.send _
    · exact h

theorem stream (h : FlowBytesInv s) {call : StreamClassify} {o : AssociateOutcome}
    (halloc : s.mayAllocate o = true) (hmay : s.mayHandOver call = true)
    (classifyOut : ClassifyOut) :
    FlowBytesInv (streamThrottleCommon call o classifyOut s).2 := by
  have hdiag := h.diag (.classifyStream call.addresses.isV6) rfl
  unfold streamThrottleCommon
  dsimp only
  split_ifs with hright
  · exact hdiag
  · cases call.streamData with
    | none => exact hdiag
    | some streamData => exact hdiag.data halloc hmay streamData

theorem delete (h : FlowBytesInv s) {a : AttachedContext} (ha : a ∈ s.attached)
    (interruptTime : U64) :
    FlowBytesInv (flowDeleteFn a.isV6 a.address interruptTime
      { s with attached := Lib.eraseKey AttachedContext.address a.address s.attached }) := by
  obtain ⟨c, hc, -⟩ := h.exists_context ha
  obtain ⟨hmem, haddress⟩ := h.contextAt_eq_some.1 hc
  rw [flowDeleteFn_eq (s := { s with
    attached := Lib.eraseKey AttachedContext.address a.address s.attached })
    (haddress ▸ h.nonzero c hmem) hc]
  exact (h.closed ha hc interruptTime).diag (.flowDelete a.isV6) rfl

theorem authorize (h : FlowBytesInv s) (g_DefaultAllow : BOOLEAN) (rules : List FirewallRule)
    (a : AleClassify) (classifyOut : ClassifyOut) :
    FlowBytesInv (authorize g_DefaultAllow rules a classifyOut s).2 := by
  unfold Driver.authorize
  obtain ⟨classifyOut, event, recorded⟩ := processAleAuth g_DefaultAllow rules a classifyOut
  cases recorded with
  | none =>
      cases event with
      | none => exact h
      | some event => exact h.authorized event
  | some processId =>
      cases event with
      | none => exact h.setTuples _
      | some event => exact (h.setTuples _).authorized event

/-- **Every step keeps the invariant.** -/
theorem step (h : FlowBytesInv s) {a : FlowByteStep} {s' : FlowByteState}
    (hstep : flowByteStep s a = some s') : FlowBytesInv s' := by
  cases a with
  | established call o classifyOut =>
      obtain ⟨hmay, hstep⟩ := Option.ite_none_right_eq_some.1 hstep
      obtain rfl := Option.some.inj hstep
      exact h.established call hmay classifyOut
  | stream call o classifyOut =>
      obtain ⟨⟨halloc, hmay⟩, hstep⟩ := Option.ite_none_right_eq_some.1 hstep
      obtain rfl := Option.some.inj hstep
      exact h.stream halloc hmay classifyOut
  | streamBytes data =>
      obtain ⟨hdata, hstep⟩ := Option.ite_none_right_eq_some.1 hstep
      obtain rfl := Option.some.inj hstep
      exact h.streamBytes hdata
  | delete address interruptTime =>
      rw [flowByteStep] at hstep
      cases hfound : Lib.findKey AttachedContext.address address s.attached with
      | none => rw [hfound] at hstep; cases hstep
      | some a =>
          rw [hfound] at hstep
          obtain ⟨ha, rfl⟩ := (Lib.findKey_eq_some h.attached_addresses).1 hfound
          obtain rfl := Option.some.inj hstep
          exact h.delete ha interruptTime
  | authorize g_DefaultAllow rules a classifyOut =>
      obtain rfl := Option.some.inj hstep
      exact h.authorize g_DefaultAllow rules a classifyOut
  | getEvent =>
      obtain rfl := Option.some.inj hstep
      exact h.fetched

end FlowBytesInv

/-- **The byte counters are right in every run:** however the callouts of the flows interleave,
no freed context is used and none is leaked, every context is reported once, with the bytes that
were counted for it, and the diagnostics lack just what the callouts in progress have counted. -/
theorem flowBytes_sound {s : FlowByteState}
    (h : Lib.Reach (· = .init) flowByteStep (fun _ _ => True) s) : FlowBytesSound s := by
  have hinv : FlowBytesInv s :=
    h.invariant (fun s hs => by rw [hs]; exact .init) fun _ _ _ hs _ hstep => hs.step hstep
  exact hinv.sound

/-- Data of a flow that was not seen to be established. -/
def uploaded (flowContext dataLength : U64) : StreamClassify where
  addresses := .v4 0x0a000002 0x08080808
  localPort := 50000
  remotePort := 443
  flowHandle := some 7
  metadataProcessId := none
  currentProcessId := 1234
  streamData := some ⟨true, dataLength⟩
  flowContext := flowContext
  streamCalloutId := 3

/-- The first data attaches a context, the second is counted, the flow ends between the two counts,
and the service fetches its event. -/
def uploadRun : List FlowByteStep :=
  [.stream (uploaded 0 500) ⟨4096, true⟩ ⟨1, .continue⟩,
    .stream (uploaded 4096 100) ⟨0, false⟩ ⟨1, .continue⟩,
    .delete 4096 5, .streamBytes ⟨false, 100⟩, .getEvent]

theorem flowBytes_sound_upload :
    ∃ s, Lib.trace flowByteStep (fun _ _ => True) .init uploadRun = some s ∧
      FlowBytesSound s ∧
      s.received.map (fun e => (e.processId, e.bytesSent, e.bytesReceived)) = [(1234, 100, 0)] := by
  obtain ⟨s, hs⟩ := Option.isSome_iff_exists.1 (show (Lib.trace flowByteStep (fun _ _ => True)
    .init uploadRun).isSome = true by decide +kernel)
  refine ⟨s, hs, flowBytes_sound (Lib.Reach.trace (.init rfl) hs), ?_⟩
  have hreceived : ((Lib.trace flowByteStep (fun _ _ => True) .init uploadRun).map fun s =>
      s.received.map fun e => (e.processId, e.bytesSent, e.bytesReceived)) =
        some [(1234, 100, 0)] := by decide +kernel
  rw [hs] at hreceived
  exact Option.some.inj hreceived

end Driver
end Ceasefire
