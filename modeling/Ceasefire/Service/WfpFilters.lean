/-
# The filters of the service: `service/src/wfp/`

While it runs the service has a filter at each layer of the driver, which hands the traffic to the
callout of that layer.  The filters outlive a service that dies, so `remove_filters` also looks for
those that name its callouts.  The kill switch are four filters that block everything, below all
others and kept over restarts of the machine; they are written in a transaction.

The engine that keeps the filters is not part of the repository: here it is a parameter, with what
is documented of the functions that the service calls (`FilterEngine`).
-/

import Ceasefire.Driver.Callouts
import Ceasefire.Lib.Transaction

namespace Ceasefire
namespace Service

open Driver (GUID FWP_E_ALREADY_EXISTS)
open Lib (TxTable)

/-! ## Filters -/

/-- `FWPM_LAYER_*`. -/
inductive FwpmLayer
  | aleAuthConnectV4
  | aleAuthConnectV6
  | aleAuthRecvAcceptV4
  | aleAuthRecvAcceptV6
  | aleFlowEstablishedV4
  | aleFlowEstablishedV6
  | streamV4
  | streamV6
  | outboundTransportV4
  | outboundTransportV6
  | inboundTransportV4
  | inboundTransportV6
  | inboundIppacketV4
  | inboundIppacketV6
  /-- A layer at which the service has no filter. -/
  | other (key : GUID)
  deriving DecidableEq

/-- The conditions that the service uses. -/
inductive FilterCondition
  /-- `FWPM_CONDITION_IP_PROTOCOL`, `FWP_MATCH_EQUAL`. -/
  | ipProtocol (value : U8)
  /-- `FWPM_CONDITION_IP_REMOTE_PORT`, `FWP_MATCH_EQUAL`. -/
  | ipRemotePort (value : U16)
  /-- `FWPM_CONDITION_FLAGS`, `FWP_MATCH_FLAGS_NONE_SET`. -/
  | flagsNoneSet (flags : U32)
  deriving DecidableEq

def FWP_ACTION_FLAG_TERMINATING : U32 := 0x1000
def FWP_ACTION_FLAG_CALLOUT : U32 := 0x4000
def FWP_ACTION_BLOCK : U32 := 0x1001
def FWP_ACTION_CALLOUT_TERMINATING : U32 := 0x5003
def FWP_ACTION_CALLOUT_INSPECTION : U32 := 0x6004

def FWP_CONDITION_FLAG_IS_LOOPBACK : U32 := 1

def FWP_E_FILTER_NOT_FOUND : U32 := 0x80320003

/-- `FWPM_FILTER0`.  Without a key of its own a filter gets one that nothing asks for. -/
structure FwpmFilter where
  filterKey : Option GUID
  persistent : Bool
  layerKey : FwpmLayer
  subLayerKey : GUID
  weight : U8
  conditions : List FilterCondition
  actionType : U32
  calloutKey : Option GUID
  deriving DecidableEq

/-- `FWPM_FILTER_ENUM_TEMPLATE0`. -/
structure EnumTemplate where
  layerKey : FwpmLayer
  calloutKey : GUID
  actionMask : U32

/-- The filters at the layer that name the callout and have a bit of the mask in their action. -/
def EnumTemplate.selects (template : EnumTemplate) (filter : FwpmFilter) : Bool :=
  filter.layerKey = template.layerKey && filter.calloutKey = some template.calloutKey &&
    filter.actionType &&& template.actionMask != 0

/-! ## The engine -/

/-- The calls on providers, sublayers and callouts. -/
inductive WfpObjectCall
  | providerAdd
  | subLayerAdd
  | calloutAdd (key : GUID) (layer : FwpmLayer)
  | calloutDeleteByKey (key : GUID)
  | subLayerDeleteByKey
  | providerDeleteByKey

/-- The part of the filtering engine that keeps filters, with the session of the service: `Fwpm*0`.
A call gives a status, zero when it has succeeded, and any of them may fail at any time; a call
that fails changes nothing.  Only an abort rolls back whatever its status is.  `remaining` are
the filters that an enumeration has still to give, of those that there were when it was created. -/
structure FilterEngine (ε : Type) where
  table : ε → TxTable U64 FwpmFilter
  remaining : ε → ℕ → List U64
  filterAdd : FwpmFilter → ε → U32 × U64 × ε
  filterDeleteById : U64 → ε → U32 × ε
  filterDeleteByKey : GUID → ε → U32 × ε
  filterCreateEnumHandle : EnumTemplate → ε → U32 × ℕ × ε
  filterEnum : ℕ → ℕ → ε → U32 × List U64 × ε
  filterDestroyEnumHandle : ℕ → ε → ε
  transactionBegin : ε → U32 × ε
  transactionCommit : ε → U32 × ε
  transactionAbort : ε → U32 × ε
  object : WfpObjectCall → ε → U32 × ε
  engineOpen : ε → U32 × ε
  engineClose : ε → ε
  /-- The machine is restarted. -/
  restart : ε → ε
  /-- A key belongs to one filter. -/
  unique : ∀ e id id' f f', (table e).rows id = some f → (table e).rows id' = some f' →
    f.filterKey = f'.filterKey → f.filterKey ≠ none → id = id'
  add_success : ∀ filter e, (filterAdd filter e).1 = 0 →
    (table e).rows (filterAdd filter e).2.1 = none ∧
      table (filterAdd filter e).2.2 = (table e).insert (filterAdd filter e).2.1 filter
  add_failed : ∀ filter e, (filterAdd filter e).1 ≠ 0 → table (filterAdd filter e).2.2 = table e
  deleteById_success : ∀ id e, (filterDeleteById id e).1 = 0 →
    table (filterDeleteById id e).2 = (table e).eraseWhere fun k _ => k = id
  deleteById_failed : ∀ id e, (filterDeleteById id e).1 ≠ 0 →
    table (filterDeleteById id e).2 = table e
  /-- An enumeration does not see what has changed since it was created. -/
  remaining_deleteById : ∀ id e, remaining (filterDeleteById id e).2 = remaining e
  deleteByKey_success : ∀ key e, (filterDeleteByKey key e).1 = 0 →
    table (filterDeleteByKey key e).2 = (table e).eraseWhere fun _ f => f.filterKey = some key
  deleteByKey_failed : ∀ key e, (filterDeleteByKey key e).1 ≠ 0 →
    table (filterDeleteByKey key e).2 = table e
  deleteByKey_notFound : ∀ key e, (filterDeleteByKey key e).1 = FWP_E_FILTER_NOT_FOUND →
    ∀ id f, (table e).rows id = some f → f.filterKey ≠ some key
  table_createEnumHandle : ∀ template e, table (filterCreateEnumHandle template e).2.2 = table e
  createEnumHandle_success : ∀ template e, (filterCreateEnumHandle template e).1 = 0 →
    ∀ id f, (table e).rows id = some f → template.selects f = true →
      id ≠ 0 ∧ id ∈ remaining (filterCreateEnumHandle template e).2.2
        (filterCreateEnumHandle template e).2.1
  createEnumHandle_only : ∀ template e, (filterCreateEnumHandle template e).1 = 0 →
    ∀ id ∈ remaining (filterCreateEnumHandle template e).2.2
      (filterCreateEnumHandle template e).2.1,
      ∃ f, (table e).rows id = some f ∧ template.selects f = true
  table_enum : ∀ handle n e, table (filterEnum handle n e).2.2 = table e
  enum_success : ∀ handle n e, (filterEnum handle n e).1 = 0 →
    remaining e handle =
      (filterEnum handle n e).2.1 ++ remaining (filterEnum handle n e).2.2 handle ∧
      ((filterEnum handle n e).2.1 = [] → n = 0 ∨ remaining e handle = [])
  enum_notFound : ∀ handle n e, (filterEnum handle n e).1 = FWP_E_FILTER_NOT_FOUND →
    remaining e handle = []
  table_destroyEnumHandle : ∀ handle e, table (filterDestroyEnumHandle handle e) = table e
  begin_success : ∀ e, (transactionBegin e).1 = 0 →
    (table e).saved = none ∧ table (transactionBegin e).2 = (table e).start
  begin_failed : ∀ e, (transactionBegin e).1 ≠ 0 → table (transactionBegin e).2 = table e
  commit_success : ∀ e, (transactionCommit e).1 = 0 →
    table (transactionCommit e).2 = (table e).commit
  commit_failed : ∀ e, (transactionCommit e).1 ≠ 0 → table (transactionCommit e).2 = table e
  table_abort : ∀ e, table (transactionAbort e).2 = (table e).rollback
  table_object : ∀ call e, table (object call e).2 = table e
  table_open : ∀ e, table (engineOpen e).2 = table e
  /-- A session that is closed in a transaction takes it back. -/
  table_close : ∀ e, table (engineClose e) = (table e).rollback
  table_restart : ∀ e,
    table (restart e) = ((table e).rollback).eraseWhere fun _ f => !f.persistent

/-! ## The keys -/

def CEASEFIRE_SUBLAYER_GUID : GUID := 0xd4e5f6a7b8c94a71cd3e4f5a6b7c8d9e
def CEASEFIRE_CALLOUT_IN_TRANSPORT_V4_LEGACY_GUID : GUID := 0x9a0b1c2f3e4f4a5b8c6d7e8f9a0b1c2d
def CEASEFIRE_CALLOUT_IN_TRANSPORT_V6_LEGACY_GUID : GUID := 0x9a0b1c303e4f4a5b8c6d7e8f9a0b1c2d
def KILL_SWITCH_OUT_GUID : GUID := 0xd4e5f6a7b8c94b72cd3e4f5a6b7c8d9e
def KILL_SWITCH_IN_GUID : GUID := 0xd4e5f6a7b8c94b73cd3e4f5a6b7c8d9e
def KILL_SWITCH_OUT_V6_GUID : GUID := 0xd4e5f6a7b8c94b75cd3e4f5a6b7c8d9e
def KILL_SWITCH_IN_V6_GUID : GUID := 0xd4e5f6a7b8c94b76cd3e4f5a6b7c8d9e

/-- The callouts, by the field of `WfpFilterManager` with the id of their filter. -/
inductive FilterSlot
  | v4
  | recvAccept
  | dns
  | stream
  | flowEstablished
  | outTransport
  | inTransport
  | v6
  | recvAcceptV6
  | dnsV6
  | streamV6
  | flowEstablishedV6
  | outTransportV6
  | inTransportV6
  deriving DecidableEq

namespace FilterSlot

/-- The key of the callout. -/
def calloutGuid : FilterSlot → GUID
  | v4 => 0xa1b2c3d4e5f647489a0b1c2d3e4f5a6b -- CEASEFIRE_CALLOUT_V4_GUID
  | recvAccept => 0xb5c6d7e8f9a04b1c8d2e3f4a5b6c7d8e -- CEASEFIRE_CALLOUT_RECV_ACCEPT_V4_GUID
  | dns => 0xc3d4e5f6a7b8495abc2d3e4f5a6b7c8d -- CEASEFIRE_DNS_CALLOUT_V4_GUID
  | stream => 0xd1e2f3b0b5c64d789eaf2b8c9daebfc0 -- CEASEFIRE_CALLOUT_STREAM_V4_GUID
  -- CEASEFIRE_CALLOUT_FLOWESTABLISHED_V4_GUID
  | flowEstablished => 0xe5a6b7ced9e04f12a3b4c5d6e7f8091a
  | outTransport => 0x9a0b1c2d3e4f4a5b8c6d7e8f9a0b1c2d -- CEASEFIRE_CALLOUT_OUT_TRANSPORT_V4_GUID
  | inTransport => 0x9a0b1c313e4f4a5b8c6d7e8f9a0b1c2d -- CEASEFIRE_CALLOUT_IN_IPPACKET_V4_GUID
  | v6 => 0xa1b2c3d5e5f647489a0b1c2d3e4f5a6b -- CEASEFIRE_CALLOUT_V6_GUID
  | recvAcceptV6 => 0xb5c6d7e9f9a04b1c8d2e3f4a5b6c7d8e -- CEASEFIRE_CALLOUT_RECV_ACCEPT_V6_GUID
  | dnsV6 => 0xc3d4e5f7a7b8495abc2d3e4f5a6b7c8d -- CEASEFIRE_DNS_CALLOUT_V6_GUID
  | streamV6 => 0xd1e2f3a9b5c64d789eaf2b8c9daebfc0 -- CEASEFIRE_CALLOUT_STREAM_V6_GUID
  -- CEASEFIRE_CALLOUT_FLOWESTABLISHED_V6_GUID
  | flowEstablishedV6 => 0xe5a6b7cdd9e04f12a3b4c5d6e7f8091a
  | outTransportV6 => 0x9a0b1c2e3e4f4a5b8c6d7e8f9a0b1c2d -- CEASEFIRE_CALLOUT_OUT_TRANSPORT_V6_GUID
  | inTransportV6 => 0x9a0b1c323e4f4a5b8c6d7e8f9a0b1c2d -- CEASEFIRE_CALLOUT_IN_IPPACKET_V6_GUID

/-- The slot of the driver's diagnostics. -/
def diagSlot : FilterSlot → ℕ
  | v4 => 0
  | recvAccept => 1
  | dns => 2
  | stream => 3
  | flowEstablished => 4
  | outTransport => 5
  | v6 => 6
  | recvAcceptV6 => 7
  | dnsV6 => 8
  | streamV6 => 9
  | flowEstablishedV6 => 10
  | outTransportV6 => 11
  | inTransport => 12
  | inTransportV6 => 13

/-- The service names the callouts as the driver registers them. -/
theorem calloutGuid_eq (slot : FilterSlot) {callout : Driver.CalloutSlot}
    (h : callout.val = slot.diagSlot) : slot.calloutGuid = Driver.calloutKey callout := by
  obtain ⟨index, hindex⟩ := callout
  obtain rfl : index = slot.diagSlot := h
  cases slot <;> rfl

def layer : FilterSlot → FwpmLayer
  | v4 => .aleAuthConnectV4
  | recvAccept => .aleAuthRecvAcceptV4
  | dns => .inboundTransportV4
  | stream => .streamV4
  | flowEstablished => .aleFlowEstablishedV4
  | outTransport => .outboundTransportV4
  | inTransport => .inboundIppacketV4
  | v6 => .aleAuthConnectV6
  | recvAcceptV6 => .aleAuthRecvAcceptV6
  | dnsV6 => .inboundTransportV6
  | streamV6 => .streamV6
  | flowEstablishedV6 => .aleFlowEstablishedV6
  | outTransportV6 => .outboundTransportV6
  | inTransportV6 => .inboundIppacketV6

end FilterSlot

/-- `tcp_condition`. -/
def tcpCondition : FilterCondition := .ipProtocol 6

/-- `loopback_exclusion_condition`. -/
def loopbackExclusionCondition : FilterCondition := .flagsNoneSet FWP_CONDITION_FLAG_IS_LOOPBACK

def FilterSlot.conditions : FilterSlot → List FilterCondition
  | .v4 | .recvAccept | .v6 | .recvAcceptV6 => []
  | .dns | .dnsV6 => [.ipProtocol 17, .ipRemotePort 53]
  | .stream | .streamV6 | .inTransport | .inTransportV6 => [loopbackExclusionCondition]
  | .flowEstablished | .flowEstablishedV6 | .outTransport | .outTransportV6 => [tcpCondition]

/-- The filter of a slot, `add_filter_*` and `add_filter_generic`.  Only the IPv4 filter for DNS is
an inspection with a low weight; the IPv6 one is added like the others. -/
def calloutFilter (slot : FilterSlot) : FwpmFilter where
  filterKey := none
  persistent := false
  layerKey := slot.layer
  subLayerKey := CEASEFIRE_SUBLAYER_GUID
  weight := if slot = .dns then 1 else 15
  conditions := slot.conditions
  actionType :=
    if slot = .dns then FWP_ACTION_CALLOUT_INSPECTION else FWP_ACTION_CALLOUT_TERMINATING
  calloutKey := some slot.calloutGuid

/-- `kill_switch_filter`, of a layer and a key. -/
def killSwitchFilter (entry : FwpmLayer × GUID) : FwpmFilter where
  filterKey := some entry.2
  persistent := true
  layerKey := entry.1
  subLayerKey := CEASEFIRE_SUBLAYER_GUID
  weight := 0
  conditions := []
  actionType := FWP_ACTION_BLOCK
  calloutKey := none

/-- The layers and keys of the kill switch. -/
def killSwitchEntries : List (FwpmLayer × GUID) :=
  [(.aleAuthConnectV4, KILL_SWITCH_OUT_GUID), (.aleAuthRecvAcceptV4, KILL_SWITCH_IN_GUID),
    (.aleAuthConnectV6, KILL_SWITCH_OUT_V6_GUID), (.aleAuthRecvAcceptV6, KILL_SWITCH_IN_V6_GUID)]

def killSwitchKeys : List GUID := killSwitchEntries.map Prod.snd

/-! ## The filter manager -/

/-- What the service logs about filters that it may not have removed. -/
inductive WfpWarning
  /-- The recorded filter of the slot could not be deleted. -/
  | slotDeleteFailed (slot : FilterSlot) (status : U32)
  /-- "Residual-sweep: create enum handle failed". -/
  | createEnumHandleFailed (status : U32)
  /-- "Residual-sweep: enumerate failed". -/
  | enumerateFailed (status : U32)
  /-- "Residual-sweep: delete filter id {} failed". -/
  | deleteFailed (id : U64) (status : U32)
  deriving DecidableEq

/-- `WfpFilterManager`, with the engine. -/
structure WfpFilterManager (ε : Type) where
  engine : ε
  filterId : FilterSlot → Option U64

def setFilterId (filterId : FilterSlot → Option U64) (slot : FilterSlot) (id : Option U64) :
    FilterSlot → Option U64 := fun other => if other = slot then id else filterId other

section Manager

variable {ε : Type} (E : FilterEngine ε)

/-- `WfpFilterManager::new`. -/
def WfpFilterManager.new (engine : ε) : WfpFilterManager ε := ⟨engine, fun _ => none⟩

/-- A status that stops the registration of an object. -/
def refused (status : U32) : Bool := status != 0 && status != FWP_E_ALREADY_EXISTS

/-- The callouts that must be registered come first; the others may fail. -/
def registerCallouts (e : ε) : Bool × ε :=
  let (status, e) := E.object (.calloutAdd (FilterSlot.calloutGuid .v4) (FilterSlot.layer .v4)) e
  if refused status then (false, e)
  else
    let (status, e) :=
      E.object (.calloutAdd (FilterSlot.calloutGuid .recvAccept) (FilterSlot.layer .recvAccept)) e
    if refused status then (false, e)
    else
      (true, [FilterSlot.stream, .flowEstablished, .outTransport, .inTransport, .dns, .v6,
        .recvAcceptV6, .streamV6, .flowEstablishedV6, .outTransportV6, .inTransportV6, .dnsV6].foldl
          (fun e slot => (E.object (.calloutAdd slot.calloutGuid slot.layer) e).2) e)

/-- `add_filter_v4` and its like: the id is recorded when the filter could be added. -/
def addFilter (slot : FilterSlot) (m : WfpFilterManager ε) : Bool × WfpFilterManager ε :=
  let (status, id, e) := E.filterAdd (calloutFilter slot) m.engine
  if status = 0 then (true, ⟨e, setFilterId m.filterId slot (some id)⟩)
  else (false, { m with engine := e })

/-- One filter of `add_filter_v6`: its id, if there is one. -/
def addFilterOk (slot : FilterSlot) (m : WfpFilterManager ε) : WfpFilterManager ε :=
  let (status, id, e) := E.filterAdd (calloutFilter slot) m.engine
  ⟨e, setFilterId m.filterId slot (if status = 0 then some id else none)⟩

/-- `add_filter_v6`. -/
def addFilterV6 (m : WfpFilterManager ε) : WfpFilterManager ε :=
  [FilterSlot.v6, .recvAcceptV6, .streamV6, .flowEstablishedV6, .outTransportV6, .inTransportV6,
    .dnsV6].foldl (fun m slot => addFilterOk E slot m) m

/-- The filters of `add_filters` that may fail; `skip` is the mask in `CEASEFIRE_SKIP_FILTERS`. -/
def addOptionalFilters (skip : U32) (m : WfpFilterManager ε) : WfpFilterManager ε :=
  addFilterV6 E
    ([(1, FilterSlot.dns), (2, .stream), (4, .flowEstablished), (8, .outTransport),
      (16, .inTransport)].foldl
        (fun m (entry : U32 × FilterSlot) =>
          if skip &&& entry.1 = 0 then (addFilter E entry.2 m).2 else m) m)

/-- `add_filters`. -/
def addFilters (skip : U32) (m : WfpFilterManager ε) : Bool × WfpFilterManager ε :=
  let (ok, m) := addFilter E .v4 m
  if !ok then (false, m)
  else
    let (ok, m) := addFilter E .recvAccept m
    if !ok then (false, m) else (true, addOptionalFilters E skip m)

/-- A filter that an enumeration has given. -/
def deleteFound (t : List WfpWarning × ε) (id : U64) : List WfpWarning × ε :=
  if id = 0 then t
  else
    let (status, e) := E.filterDeleteById id t.2
    (if status = 0 then t.1 else t.1 ++ [.deleteFailed id status], e)

/-- The filters of one call of `FwpmFilterEnum0`. -/
def deleteAllFound (ids : List U64) (t : List WfpWarning × ε) : List WfpWarning × ε :=
  ids.foldl (deleteFound E) t

theorem remaining_deleteAllFound (ids : List U64) (t : List WfpWarning × ε) :
    E.remaining (deleteAllFound E ids t).2 = E.remaining t.2 := by
  rw [deleteAllFound]
  induction ids generalizing t with
  | nil => rfl
  | cons id ids ih =>
      refine (ih _).trans ?_
      rw [deleteFound]
      split_ifs
      · rfl
      · exact E.remaining_deleteById id t.2

/-- The loop of the sweep, ten filters at a time. -/
def sweepLoop (handle : ℕ) (t : List WfpWarning × ε) : List WfpWarning × ε :=
  if hstop : (E.filterEnum handle 10 t.2).1 ≠ 0 ∨ (E.filterEnum handle 10 t.2).2.1 = [] then
    (if (E.filterEnum handle 10 t.2).1 ≠ 0 ∧
        (E.filterEnum handle 10 t.2).1 ≠ FWP_E_FILTER_NOT_FOUND
      then t.1 ++ [.enumerateFailed (E.filterEnum handle 10 t.2).1] else t.1,
      (E.filterEnum handle 10 t.2).2.2)
  else
    sweepLoop handle (deleteAllFound E (E.filterEnum handle 10 t.2).2.1
      (t.1, (E.filterEnum handle 10 t.2).2.2))
  termination_by (E.remaining t.2 handle).length
  decreasing_by
    rw [remaining_deleteAllFound]
    obtain ⟨hstatus, hids⟩ := not_or.1 hstop
    obtain ⟨hremaining, -⟩ := E.enum_success handle 10 t.2 (not_not.1 hstatus)
    rw [hremaining, List.length_append]
    exact Nat.lt_add_of_pos_left (List.length_pos_of_ne_nil hids)

/-- `sweep_callout_filters`. -/
def sweepCalloutFilters (t : List WfpWarning × ε) (callout : GUID × FwpmLayer) :
    List WfpWarning × ε :=
  let (status, handle, e) := E.filterCreateEnumHandle
    ⟨callout.2, callout.1, FWP_ACTION_FLAG_TERMINATING ||| FWP_ACTION_FLAG_CALLOUT⟩ t.2
  if status ≠ 0 then (t.1 ++ [.createEnumHandleFailed status], e)
  else
    let (warnings, e) := sweepLoop E handle (t.1, e)
    (warnings, E.filterDestroyEnumHandle handle e)

/-- The callouts in the order in which they are swept, with those of older versions. -/
def sweptCallouts : List (GUID × FwpmLayer) :=
  let pair (slot : FilterSlot) : GUID × FwpmLayer := (slot.calloutGuid, slot.layer)
  [pair .v4, pair .recvAccept, pair .dns, pair .stream, pair .flowEstablished, pair .outTransport,
    pair .inTransport, (CEASEFIRE_CALLOUT_IN_TRANSPORT_V4_LEGACY_GUID, .inboundTransportV4),
    pair .v6, pair .recvAcceptV6, pair .dnsV6, pair .streamV6, pair .flowEstablishedV6,
    pair .outTransportV6, pair .inTransportV6,
    (CEASEFIRE_CALLOUT_IN_TRANSPORT_V6_LEGACY_GUID, .inboundTransportV6)]

/-- The deletion of a recorded filter. -/
def deleteRecorded (t : List WfpWarning × WfpFilterManager ε) (slot : FilterSlot) :
    List WfpWarning × WfpFilterManager ε :=
  match t.2.filterId slot with
  | none => t
  | some id =>
      let (status, e) := E.filterDeleteById id t.2.engine
      (if status = 0 then t.1 else t.1 ++ [.slotDeleteFailed slot status],
        ⟨e, setFilterId t.2.filterId slot none⟩)

/-- `remove_filters`. -/
def removeFilters (t : List WfpWarning × WfpFilterManager ε) :
    List WfpWarning × WfpFilterManager ε :=
  let (warnings, m) :=
    [FilterSlot.v4, .recvAccept, .dns, .stream, .flowEstablished, .outTransport, .inTransport, .v6,
      .recvAcceptV6, .dnsV6, .streamV6, .flowEstablishedV6, .outTransportV6, .inTransportV6].foldl
        (deleteRecorded E) t
  let (warnings, e) := sweptCallouts.foldl (sweepCalloutFilters E) (warnings, m.engine)
  (warnings, { m with engine := e })

/-- `unregister_callouts`. -/
def unregisterCallouts (e : ε) : ε :=
  sweptCallouts.foldl (fun e callout => (E.object (.calloutDeleteByKey callout.1) e).2) e

/-- `WfpEngine::cleanup`. -/
def cleanup (e : ε) : ε :=
  (E.object .providerDeleteByKey (E.object .subLayerDeleteByKey e).2).2

/-- The filter manager is dropped, then the engine. -/
def dropManager (t : List WfpWarning × WfpFilterManager ε) : List WfpWarning × ε :=
  let (warnings, m) := removeFilters E t
  (warnings, E.engineClose m.engine)

/-- The end of `initialize_wfp`. -/
inductive WfpStart (ε : Type)
  | running (m : WfpFilterManager ε)
  /-- With the warnings of `remove_filters`, when there was a manager to drop. -/
  | failed (warnings : Option (List WfpWarning)) (e : ε)

/-- `initialize_wfp`. -/
def initializeWfp (skip : U32) (e : ε) : WfpStart ε :=
  let (status, e) := E.engineOpen e
  if status ≠ 0 then .failed none e
  else
    let (status, e) := E.object .providerAdd e
    if refused status then .failed none (E.engineClose e)
    else
      let (status, e) := E.object .subLayerAdd e
      if refused status then .failed none (E.engineClose e)
      else
        let (ok, e) := registerCallouts E e
        if !ok then
          let (warnings, e) := dropManager E ([], .new e)
          .failed (some warnings) e
        else
          let (ok, m) := addFilters E skip (.new e)
          if !ok then
            let (warnings, e) := dropManager E ([], m)
            .failed (some warnings) e
          else .running m

/-- `cleanup_wfp`.  The manager removes its filters once more when it is dropped. -/
def cleanupWfp (m : WfpFilterManager ε) : List WfpWarning × ε :=
  let (warnings, m) := removeFilters E ([], m)
  dropManager E (warnings, { m with engine := cleanup E (unregisterCallouts E m.engine) })

/-! ## The kill switch -/

/-- The calls that `add_persistent_block_filters` makes inside its transaction. -/
inductive KillSwitchCall
  | delete (key : GUID)
  | add (entry : FwpmLayer × GUID)

/-- The deletions, whose errors do not matter, and the additions, the first of which to fail is
the last call. -/
def installCalls : List KillSwitchCall :=
  killSwitchKeys.map .delete ++ killSwitchEntries.map .add

/-- The calls one after the other, until one of them stops the installation. -/
def runCalls : List KillSwitchCall → ε → Bool × ε
  | [], e => (true, e)
  | .delete key :: calls, e => runCalls calls (E.filterDeleteByKey key e).2
  | .add entry :: calls, e =>
      let (status, _, e) := E.filterAdd (killSwitchFilter entry) e
      if status ≠ 0 then (false, e) else runCalls calls e

/-- `add_persistent_block_filters`. -/
def addPersistentBlockFilters (e : ε) : Bool × ε :=
  let (status, e) := E.transactionBegin e
  if status ≠ 0 then (false, e)
  else
    let (ok, e) := runCalls E installCalls e
    if !ok then (false, (E.transactionAbort e).2)
    else
      let (status, e) := E.transactionCommit e
      if status ≠ 0 then (false, (E.transactionAbort e).2) else (true, e)

/-- The deletion of the filters with the keys, with the statuses, which nothing looks at. -/
def deleteByKeys : List GUID → ε → List U32 × ε
  | [], e => ([], e)
  | key :: keys, e =>
      let (status, e) := E.filterDeleteByKey key e
      let (statuses, e) := deleteByKeys keys e
      (status :: statuses, e)

/-- `remove_persistent_block_filters`, of the service and of its uninstaller. -/
def removePersistentBlockFilters (e : ε) : List U32 × ε := deleteByKeys E killSwitchKeys e

end Manager

end Service
end Ceasefire
