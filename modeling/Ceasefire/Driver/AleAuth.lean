/-
# The ALE authorization callout: `driver/src/wfp.c`, `ProcessAleAuth`

One classify call at the layers `ALE_AUTH_CONNECT` and `ALE_AUTH_RECV_ACCEPT`,
for either family: it builds an event out of the fixed values and the metadata,
asks `matchRules`, and sets the action.  A call without the right to write the
action does nothing at all.
-/

import Ceasefire.Driver.Rules

namespace Ceasefire
namespace Driver

def FWPS_RIGHT_ACTION_WRITE : U32 := 1
def PROTOCOL_TCP : U32 := 6
def NETWORK_EVENT_TYPE_CONNECTION : U32 := 0

/-- The values of `FWPS_CLASSIFY_OUT::actionType` that matter here. -/
inductive ActionType
  | continue
  | permit
  | block
  deriving DecidableEq, Repr

/-- `FWPS_CLASSIFY_OUT`. -/
structure ClassifyOut where
  rights : U32
  actionType : ActionType
  deriving DecidableEq

/-- The address values of the layer: a number at the IPv4 layers, sixteen octets
at the IPv6 ones. -/
inductive AleAddresses
  | v4 (localAddr remoteAddr : U32)
  | v6 (localAddr remoteAddr : Bytes 16)

/-- What WFP hands to a classify call. -/
structure AleClassify where
  direction : U32
  addresses : AleAddresses
  protocol : U8
  localPort : U16
  remotePort : U16
  metadataProcessId : Option U64
  metadataProcessPath : Option (List U8)
  currentProcessId : U64
  interruptTime : U64

/-- `NETWORK_EVENT`. -/
structure NetworkEvent where
  timestamp : U64
  processId : U32
  eventType : U32
  processPath : WidePath
  protocol : U32
  localAddr : Bytes 16
  remoteAddr : Bytes 16
  localPort : U16
  remotePort : U16
  allowed : BOOLEAN
  matchedRuleId : U32
  bytesSent : U64
  bytesReceived : U64
  addressFamily : U32
  direction : U32

/-- `GetProcessPath` into a zeroed buffer: the whole characters of the blob, at
most 259 of them, and NUL from there on. -/
def getProcessPath (path : Option (List U8)) : WidePath where
  cell i :=
    let data := path.getD []
    let copyLength := min data.length ((MAX_PATH_LENGTH - 1) * 2)
    if i.val < copyLength / 2 then Lib.loadLE (fun j => data.getD (2 * i.val + j) 0) 2 else 0
  terminated := by
    have hlast : min (path.getD []).length 518 / 2 ≤ 259 := by omega
    exact if_neg (Nat.not_lt.2 hlast)

namespace AleClassify

/-- The process a call is charged to: the metadata's, or for outbound calls the
current one. -/
def processId (a : AleClassify) : U32 :=
  let processId := (a.metadataProcessId.getD 0).setWidth 32
  if processId = 0 ∧ a.direction ≠ RULE_DIRECTION_IN then a.currentProcessId.setWidth 32
  else processId

def addressFamily (a : AleClassify) : U32 :=
  match a.addresses with
  | .v4 .. => CF_ADDR_FAMILY_V4
  | .v6 .. => CF_ADDR_FAMILY_V6

def localAddr (a : AleClassify) : Bytes 16 :=
  match a.addresses with
  | .v4 l _ => cfAddrSetV4 l
  | .v6 l _ => l

def remoteAddr (a : AleClassify) : Bytes 16 :=
  match a.addresses with
  | .v4 _ r => cfAddrSetV4 r
  | .v6 _ r => r

/-- The arguments of the call to `MatchRules`. -/
def connection (a : AleClassify) : Connection where
  processId := a.processId
  processPath := getProcessPath a.metadataProcessPath
  protocol := a.protocol.setWidth 32
  addressFamily := a.addressFamily
  remoteAddr := a.remoteAddr
  remotePort := a.remotePort
  localPort := a.localPort
  direction := a.direction

end AleClassify

/-- `ProcessAleAuth`: the classify result, the event queued and the process
recorded for the five-tuple of an allowed TCP connection. -/
def processAleAuth (g_DefaultAllow : BOOLEAN) (rules : List FirewallRule) (a : AleClassify)
    (classifyOut : ClassifyOut) : ClassifyOut × Option NetworkEvent × Option U32 :=
  if classifyOut.rights &&& FWPS_RIGHT_ACTION_WRITE = 0 then (classifyOut, none, none)
  else
    let c := a.connection
    let (matched, verdict, matchedRuleId) := matchRules g_DefaultAllow c rules
    let allowConnection := if matched then verdict else g_DefaultAllow
    let event : NetworkEvent :=
      { timestamp := a.interruptTime
        processId := c.processId
        eventType := NETWORK_EVENT_TYPE_CONNECTION
        processPath := c.processPath
        protocol := c.protocol
        localAddr := a.localAddr
        remoteAddr := c.remoteAddr
        localPort := c.localPort
        remotePort := c.remotePort
        allowed := if allowConnection ≠ 0 then 1 else 0
        matchedRuleId := matchedRuleId
        bytesSent := 0
        bytesReceived := 0
        addressFamily := c.addressFamily
        direction := c.direction }
    let classifyOut : ClassifyOut :=
      { rights := classifyOut.rights &&& ~~~FWPS_RIGHT_ACTION_WRITE
        actionType := if allowConnection ≠ 0 then .permit else .block }
    let recorded :=
      if allowConnection ≠ 0 ∧ c.protocol = PROTOCOL_TCP ∧ c.processId ≠ 0 then some c.processId
      else none
    (classifyOut, some event, recorded)

/-- **The action is the verdict of `MatchRules`,** whether a rule matched or the
default policy decided. -/
theorem processAleAuth_actionType {g : BOOLEAN} {rules : List FirewallRule} {a : AleClassify}
    {out : ClassifyOut} (h : out.rights &&& FWPS_RIGHT_ACTION_WRITE ≠ 0) :
    (processAleAuth g rules a out).1.actionType =
      if (matchRules g a.connection rules).2.1 ≠ 0 then .permit else .block := by
  have hdefault : (matchRules g a.connection rules).1 = false →
      (matchRules g a.connection rules).2.1 = g := by
    rw [matchRules_eq]
    cases rules.find? (ruleTests · a.connection) <;> simp
  rw [processAleAuth, if_neg h]
  cases hm : (matchRules g a.connection rules).1 with
  | true => simp only [hm, if_true]
  | false => simp only [hm, hdefault hm, Bool.false_eq_true, if_false]

end Driver
end Ceasefire
