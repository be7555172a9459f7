/-
# The device as the service uses it: `service/src/driver/handle.rs`, `ioctl.rs`, `converter.rs`

The models of the service take a call of `DriverHandle` to be the function of the driver that it
is meant to reach.  What the service does is to write a structure of its own into bytes, in the
layout of `repr(C)`, and hand them to the device with a code of its own.  Here the bytes go through
`dispatchDeviceControl`: they are read as what was meant (`HandleCall.sent_call`), so that the
programs of the service leave in the device what they leave in their models
(`device_follows_handle`).
-/

import Ceasefire.Driver.Device
import Ceasefire.Service.RuleManager

namespace Ceasefire
namespace Service

open Driver (Bytes RuleInput BOOLEAN u8 u16 u32 IoRequest DeviceState DeviceCall DeviceStep Ioctl)
open Lib (Codec Members)

/-! ## What the service sends -/

def IOCTL_ADD_RULE : U32 := 0x00122004
def IOCTL_REMOVE_RULE : U32 := 0x00122008
def IOCTL_UPDATE_RULE : U32 := 0x0012200C
def IOCTL_CLEAR_RULES : U32 := 0x00122010
def IOCTL_GET_EVENT : U32 := 0x00122014
def IOCTL_GET_DNS_EVENT : U32 := 0x00122018
def IOCTL_SET_DEFAULT_POLICY : U32 := 0x0012201C
def IOCTL_SET_THROTTLE : U32 := 0x00122020
def IOCTL_GET_DIAGS : U32 := 0x00122024
def IOCTL_CLEAR_THROTTLE : U32 := 0x00122028

/-- The code that the service has for a request. -/
def ioctlCode : Ioctl → U32
  | .addRule => IOCTL_ADD_RULE
  | .removeRule => IOCTL_REMOVE_RULE
  | .updateRule => IOCTL_UPDATE_RULE
  | .clearRules => IOCTL_CLEAR_RULES
  | .getEvent => IOCTL_GET_EVENT
  | .getDnsEvent => IOCTL_GET_DNS_EVENT
  | .setDefaultPolicy => IOCTL_SET_DEFAULT_POLICY
  | .setThrottle => IOCTL_SET_THROTTLE
  | .getDiags => IOCTL_GET_DIAGS
  | .clearThrottle => IOCTL_CLEAR_THROTTLE

/-- The two tables of codes are one. -/
theorem ioctlCode_eq (i : Ioctl) : ioctlCode i = i.code := by cases i <;> decide

/-- `DriverRuleInput`, under `repr(C)`, with `_padding1` a member. -/
def driverRuleInputMembers :
    Members 0 (U32 × U32 × U8 × U8 × U16 × U32 × (Fin 260 → U16) × U32 × Bytes 16 × Bytes 16 ×
      U32 × U16 × U16 × U32 × U16 × U16) :=
  .cons u32 <| .cons u32 <| .cons u8 <| .cons u8 <| .cons u16 <| .cons u32 <|
    .cons (u16.array 260) <| .cons u32 <| .cons (u8.array 16) <| .cons (u8.array 16) <|
    .cons u32 <| .cons u16 <| .cons u16 <| .cons u32 <| .cons u16 <| .last u16

example : (Codec.ofMembers driverRuleInputMembers).size = 588 ∧ driverRuleInputMembers.offsets =
    [0, 4, 8, 9, 10, 12, 16, 536, 540, 556, 572, 576, 578, 580, 584, 586] := by decide

/-- `DriverRuleInput::as_bytes`, of the structure that `from_rule` makes. -/
def asBytes (r : RuleInput) : List U8 :=
  (Codec.ofMembers driverRuleInputMembers).bytes
    (r.ruleId, r.priority, r.enabled, r.isAllow, 0, r.processId, r.processPath, r.protocol,
      r.remoteAddr, r.remoteAddrMask, r.addressFamily, r.remotePort, r.localPort, r.direction,
      r.remotePortEnd, r.localPortEnd)

theorem write_zero (i : ℕ) : u16.write 0 i = 0 := by
  refine BitVec.eq_of_getLsbD_eq fun j hj => ?_
  change (Lib.byteLE _ i).getLsbD j = _
  rw [Lib.getLsbD_byteLE _ _ _ hj]
  simp

theorem driverRuleInput_write (r : RuleInput) :
    driverRuleInputMembers.write (r.ruleId, r.priority, r.enabled, r.isAllow, 0, r.processId,
      r.processPath, r.protocol, r.remoteAddr, r.remoteAddrMask, r.addressFamily, r.remotePort,
      r.localPort, r.direction, r.remotePortEnd, r.localPortEnd) =
    Driver.RULE_INPUT.write r := by
  change Members.place _ _ _ (Members.place _ _ _ (Members.place _ _ _ (Members.place _ _ _ _))) =
    Members.place _ _ _ (Members.place _ _ _ (Members.place _ _ _ (Members.place _ _ _ _)))
  rw [Members.write_reserve write_zero]
  rfl

theorem length_asBytes (r : RuleInput) : (asBytes r).length = Driver.RULE_INPUT.size :=
  Codec.length_bytes _ _

/-- **The driver reads the rule that was sent.** -/
theorem read_asBytes (r : RuleInput) :
    Driver.RULE_INPUT.read (fun i => (asBytes r).getD i 0) = r := by
  refine Driver.RULE_INPUT.read_eq fun i hi => ?_
  rw [asBytes, Codec.getD_bytes _ _ (show i < (Codec.ofMembers driverRuleInputMembers).size from hi)]
  exact congrFun (driverRuleInput_write r) i

/-- `DriverThrottleInput`. -/
def driverThrottleInputMembers : Members 0 (U32 × U32 × U32) :=
  .cons u32 <| .cons u32 <| .last u32

/-- The calls of `DriverHandle` that send something. -/
inductive HandleCall
  | addRule (rule : Rule)
  | removeRule (ruleId : U32)
  | updateRule (rule : Rule)
  | clearRules
  | setDefaultPolicy (allow : Bool)
  | setThrottle (processId rateUpBps rateDownBps : U32)
  | clearThrottleTable

namespace HandleCall

/-- The request and the bytes that a call hands to `send_ioctl`. -/
def message (platform : Platform) : HandleCall → Result (Ioctl × List U8)
  | .addRule rule => (fromRule platform rule).map fun input => (.addRule, asBytes input)
  | .removeRule ruleId => .ok (.removeRule, u32.bytes ruleId)
  | .updateRule rule => (fromRule platform rule).map fun input => (.updateRule, asBytes input)
  | .clearRules => .ok (.clearRules, [])
  | .setDefaultPolicy allow => .ok (.setDefaultPolicy, u32.bytes (if allow then 1 else 0))
  | .setThrottle processId rateUpBps rateDownBps =>
      .ok (.setThrottle, (Codec.ofMembers driverThrottleInputMembers).bytes
        (processId, rateUpBps, rateDownBps))
  | .clearThrottleTable => .ok (.clearThrottle, [])

/-- The function of the driver that a call means, as the models of its callers have it. -/
def meant (platform : Platform) (allocated : Bool) (now : U64) : HandleCall → Result DeviceCall
  | .addRule rule => (fromRule platform rule).map fun input => .rule (.add allocated input)
  | .removeRule ruleId => .ok (.rule (.remove ruleId))
  | .updateRule rule => (fromRule platform rule).map fun input => .rule (.update input)
  | .clearRules => .ok (.rule .clear)
  | .setDefaultPolicy allow => .ok (.setDefaultPolicy (if allow then 1 else 0))
  | .setThrottle processId rateUpBps rateDownBps =>
      .ok (.setThrottle ⟨processId, rateUpBps, rateDownBps⟩ now)
  | .clearThrottleTable => .ok .clearThrottle

end HandleCall

/-- `send_ioctl`: the request that `DeviceIoControl` makes of the input. -/
def sendIoctl (ioctlCode : U32) (inputData : List U8) (allocated : Bool) (now : U64) : IoRequest where
  ioControlCode := ioctlCode
  inputBufferLength := BitVec.ofNat 32 inputData.length
  outputBufferLength := 0
  systemBuffer k := inputData.getD k 0
  allocated := allocated
  now := now

/-- A message that brings what its request needs is the call that its bytes read as. -/
theorem call_sendIoctl (i : Ioctl) (data : List U8) (hlength : data.length = i.inputSize)
    (hin : i.inputSize < 2 ^ 32) (hout : i.outputSize = 0) (allocated : Bool) (now : U64) :
    (sendIoctl (ioctlCode i) data allocated now).call =
      .ok (i.read allocated now fun k => data.getD k 0) := by
  have hfits : (sendIoctl (ioctlCode i) data allocated now).Fits i := by
    refine ⟨Nat.le_of_eq ?_, hout.le⟩
    change i.inputSize = (BitVec.ofNat 32 data.length).toNat
    rw [BitVec.toNat_ofNat, hlength, Nat.mod_eq_of_lt hin]
  have hcode : Ioctl.ofCode (sendIoctl (ioctlCode i) data allocated now).ioControlCode = some i :=
    (congrArg _ (ioctlCode_eq i)).trans (Ioctl.ofCode_code i)
  rw [IoRequest.call, hcode]
  exact if_pos hfits

theorem sent_addRule (input : RuleInput) (allocated : Bool) (now : U64) :
    (sendIoctl (ioctlCode .addRule) (asBytes input) allocated now).call =
      .ok (.rule (.add allocated input)) := by
  rw [call_sendIoctl .addRule _ (length_asBytes input) (by decide) rfl, Ioctl.read,
    read_asBytes]

theorem sent_rule (input : RuleInput) (allocated : Bool) (now : U64) :
    (sendIoctl (ioctlCode .updateRule) (asBytes input) allocated now).call =
      .ok (.rule (.update input)) := by
  rw [call_sendIoctl .updateRule _ (length_asBytes input) (by decide) rfl, Ioctl.read,
    read_asBytes]

/-- **The bytes that are sent ask for what was meant.** -/
theorem HandleCall.sent_call (c : HandleCall) (platform : Platform) (allocated : Bool) (now : U64) :
    (c.message platform).map
        (fun m => (sendIoctl (ioctlCode m.1) m.2 allocated now).call) =
      (c.meant platform allocated now).map Except.ok := by
  cases c with
  | addRule rule =>
      simp only [message, meant]
      cases fromRule platform rule with
      | error e => rfl
      | ok input => simp only [Except.map, sent_addRule]
  | removeRule ruleId =>
      have hcall := call_sendIoctl .removeRule (u32.bytes ruleId)
        (Codec.length_bytes _ _) (by decide) rfl allocated now
      rw [Ioctl.read, Driver.RULE_ID_INPUT, Codec.read_bytes] at hcall
      exact congrArg _ hcall
  | updateRule rule =>
      simp only [message, meant]
      cases fromRule platform rule with
      | error e => rfl
      | ok input => simp only [Except.map, sent_rule]
  | clearRules => exact congrArg _ (call_sendIoctl .clearRules [] rfl (by decide) rfl _ _)
  | setDefaultPolicy allow =>
      have hcall := call_sendIoctl .setDefaultPolicy (u32.bytes (if allow then 1 else 0))
        (Codec.length_bytes _ _) (by decide) rfl
        allocated now
      rw [Ioctl.read, Codec.read_bytes] at hcall
      refine (congrArg _ hcall).trans ?_
      cases allow <;> rfl
  | setThrottle processId rateUpBps rateDownBps =>
      have hcall := call_sendIoctl .setThrottle
        (Driver.THROTTLE_INPUT.bytes ⟨processId, rateUpBps, rateDownBps⟩)
        (Codec.length_bytes _ _) (by decide) rfl allocated now
      rw [Ioctl.read, Codec.read_bytes] at hcall
      exact congrArg _ hcall
  | clearThrottleTable =>
      exact congrArg _ (call_sendIoctl .clearThrottle [] rfl (by decide) rfl _ _)

/-! ## The service and the device in step -/

/-- What the service's own models say of the driver: the rules in the world of the rule manager,
the policy that was set last, and the throttle table. -/
structure HandleView where
  world : World
  policy : BOOLEAN
  throttle : Driver.ThrottleRun

/-- A call of `DriverHandle`, at some time of the driver's clock, or something else that happens to
the device. -/
inductive HandleStep
  | call (c : HandleCall) (now : U64)
  | device (a : DeviceStep)

/-- The calls on rules, as the programs that the rule manager is built from. -/
def ruleProgram (env : Env) : HandleCall → Option (ServiceM Unit)
  | .addRule rule => some (DriverHandle.addRule env rule)
  | .removeRule ruleId => some (DriverHandle.removeRule env ruleId)
  | .updateRule rule => some (DriverHandle.updateRule env rule)
  | .clearRules => some (DriverHandle.clearRules env)
  | _ => none

/-- A call in the service's models. -/
def viewCall (env : Env) (c : HandleCall) (now : U64) (v : HandleView) : HandleView :=
  match ruleProgram env c with
  | some program => { v with world := (program v.world).state }
  | none =>
      let next := { v with world := { v.world with calls := v.world.calls + 1 } }
      if env.driverFault v.world.calls then next
      else
        match c with
        | .setDefaultPolicy allow => { next with policy := if allow then 1 else 0 }
        | .setThrottle processId rateUpBps rateDownBps =>
            { next with
              throttle :=
                { v.throttle with
                  table := (Driver.throttleSetEntry ⟨processId, rateUpBps, rateDownBps⟩ now
                    v.throttle.table).2 } }
        | .clearThrottleTable =>
            { next with
              throttle := { v.throttle with table := Driver.throttleClearAll v.throttle.table } }
        | _ => next

/-- What a call does to the device: nothing when it fails on the way, or has nothing to send. -/
def transmit (env : Env) (c : HandleCall) (now : U64) (v : HandleView) (d : DeviceState) :
    DeviceState :=
  if env.driverFault v.world.calls then d
  else
    match c.message env.platform with
    | .error _ => d
    | .ok (i, data) =>
        (Driver.dispatchDeviceControl
          (sendIoctl (ioctlCode i) data (env.allocated v.world.calls) now) d).2

/-- The models of the service and the device, side by side. -/
def handleStep (env : Env) (s : HandleView × DeviceState) :
    HandleStep → Option (HandleView × DeviceState)
  | .call c now => some (viewCall env c now s.1, transmit env c now s.1 s.2)
  | .device (.throttle step) => do
      let t ← Driver.throttleRunStep s.1.throttle step
      let d ← Driver.deviceStep s.2 (.throttle step)
      pure ({ s.1 with throttle := t }, d)
  | .device a => (Driver.deviceStep s.2 a).map fun d => (s.1, d)

/-- The device is used through `DriverHandle` only. -/
def HandleStep.Ours : HandleStep → Prop
  | .device (.control _) => False
  | _ => True

/-- The models say what is in the device. -/
structure DriverInStep (v : HandleView) (d : DeviceState) : Prop where
  rules : d.rules = v.world.driver
  policy : d.defaultAllow = v.policy
  throttle : d.throttle = v.throttle

theorem transmit_eq (env : Env) (c : HandleCall) (now : U64) (v : HandleView) (d : DeviceState) :
    transmit env c now v d =
      if env.driverFault v.world.calls then d
      else
        match c.meant env.platform (env.allocated v.world.calls) now with
        | .error _ => d
        | .ok call => d.after call := by
  have hsent := c.sent_call env.platform (env.allocated v.world.calls) now
  unfold transmit
  cases hmessage : c.message env.platform with
  | error e =>
      rw [hmessage] at hsent
      cases hmeant : c.meant env.platform (env.allocated v.world.calls) now with
      | error e' => rfl
      | ok call =>
          rw [hmeant] at hsent
          cases hsent
  | ok m =>
      rw [hmessage] at hsent
      cases hmeant : c.meant env.platform (env.allocated v.world.calls) now with
      | error e' =>
          rw [hmeant] at hsent
          cases hsent
      | ok call =>
          rw [hmeant] at hsent
          have hcall : (sendIoctl (ioctlCode m.1) m.2 (env.allocated v.world.calls) now).call =
              .ok call := Except.ok.inj hsent
          simp only [Driver.dispatchDeviceControl_eq, hcall, DeviceState.serve_snd]

/-- The rules that a call leaves in the world of the service. -/
theorem driver_driverCall (env : Env) (request : World → Result Driver.RuleOp) (w : World) :
    (driverCall env (fun w => (request w).map (Driver.ruleStep w.driver)) w).state.driver =
      if env.driverFault w.calls then w.driver
      else
        match request w with
        | .error _ => w.driver
        | .ok op => (Driver.ruleStep w.driver op).2 := by
  unfold driverCall Lib.Prog.call
  cases hrequest : request w with
  | error e =>
      simp only [hrequest, Except.map]
      split_ifs <;> rfl
  | ok op =>
      simp only [hrequest, Except.map]
      split_ifs <;> rfl

/-- A call on rules: the program leaves in its world what the device has. -/
theorem DriverInStep.ruleCall {v : HandleView} {d : DeviceState} (h : DriverInStep v d) {env : Env}
    {program : ServiceM Unit} {request : World → Result Driver.RuleOp}
    (hprogram : program = driverCall env fun w => (request w).map (Driver.ruleStep w.driver)) :
    DriverInStep { v with world := (program v.world).state }
      (if env.driverFault v.world.calls then d
      else
        match (request v.world).map DeviceCall.rule with
        | .error _ => d
        | .ok call => d.after call) := by
  have hdriver := driver_driverCall env request v.world
  rw [← hprogram] at hdriver
  split_ifs at hdriver ⊢
  · exact ⟨h.rules.trans hdriver.symm, h.policy, h.throttle⟩
  · cases hrequest : request v.world with
    | error e =>
        rw [hrequest] at hdriver
        exact ⟨h.rules.trans hdriver.symm, h.policy, h.throttle⟩
    | ok op =>
        rw [hrequest] at hdriver
        refine ⟨Eq.trans ?_ hdriver.symm, h.policy, h.throttle⟩
        change (Driver.ruleStep d.rules op).2 = _
        rw [h.rules]

/-- The operation on the rule list that a call asks for. -/
theorem addRule_eq (env : Env) (rule : Rule) :
    DriverHandle.addRule env rule = driverCall env fun w =>
      ((fromRule env.platform rule).map (Driver.RuleOp.add (env.allocated w.calls))).map
        (Driver.ruleStep w.driver) := by
  unfold DriverHandle.addRule
  congr 1
  funext w
  cases fromRule env.platform rule <;> rfl

theorem updateRule_eq (env : Env) (rule : Rule) :
    DriverHandle.updateRule env rule = driverCall env fun w =>
      ((fromRule env.platform rule).map Driver.RuleOp.update).map (Driver.ruleStep w.driver) := by
  unfold DriverHandle.updateRule
  congr 1
  funext w
  cases fromRule env.platform rule <;> rfl

theorem removeRule_eq (env : Env) (ruleId : U32) :
    DriverHandle.removeRule env ruleId = driverCall env fun w =>
      (Except.ok (Driver.RuleOp.remove ruleId)).map (Driver.ruleStep w.driver) := rfl

theorem clearRules_eq (env : Env) :
    DriverHandle.clearRules env = driverCall env fun w =>
      (Except.ok Driver.RuleOp.clear).map (Driver.ruleStep w.driver) := rfl

/-- **One call.** -/
theorem DriverInStep.call {v : HandleView} {d : DeviceState} (h : DriverInStep v d) (env : Env)
    (c : HandleCall) (now : U64) : DriverInStep (viewCall env c now v) (transmit env c now v d) := by
  rw [transmit_eq]
  cases c with
  | addRule rule =>
      have hcall := h.ruleCall (addRule_eq env rule)
      simp only [viewCall, ruleProgram, HandleCall.meant]
      cases hinput : fromRule env.platform rule <;> simpa only [hinput, Except.map] using hcall
  | updateRule rule =>
      have hcall := h.ruleCall (updateRule_eq env rule)
      simp only [viewCall, ruleProgram, HandleCall.meant]
      cases hinput : fromRule env.platform rule <;> simpa only [hinput, Except.map] using hcall
  | removeRule ruleId =>
      exact h.ruleCall (removeRule_eq env ruleId)
  | clearRules => exact h.ruleCall (clearRules_eq env)
  | setDefaultPolicy allow =>
      simp only [viewCall, ruleProgram, HandleCall.meant]
      by_cases hfault : env.driverFault v.world.calls = true
      · simp only [if_pos hfault]
        exact ⟨h.rules, h.policy, h.throttle⟩
      · simp only [if_neg hfault]
        exact ⟨h.rules, rfl, h.throttle⟩
  | setThrottle processId rateUpBps rateDownBps =>
      simp only [viewCall, ruleProgram, HandleCall.meant]
      split_ifs
      · exact ⟨h.rules, h.policy, h.throttle⟩
      · refine ⟨h.rules, h.policy, ?_⟩
        rw [DeviceState.after, h.throttle]
  | clearThrottleTable =>
      simp only [viewCall, ruleProgram, HandleCall.meant]
      split_ifs
      · exact ⟨h.rules, h.policy, h.throttle⟩
      · refine ⟨h.rules, h.policy, ?_⟩
        rw [DeviceState.after, h.throttle]

/-- What is not a request leaves rules, policy and table alone, up to its own section. -/
theorem deviceStep_frame {d d' : DeviceState} {a : DeviceStep} (hstep : Driver.deviceStep d a = some d')
    (hcontrol : ∀ r, a ≠ .control r) (hthrottle : ∀ s, a ≠ .throttle s) :
    d'.rules = d.rules ∧ d'.defaultAllow = d.defaultAllow ∧ d'.throttle = d.throttle := by
  have henqueue : ∀ event, (d.enqueue event).rules = d.rules ∧
      (d.enqueue event).defaultAllow = d.defaultAllow ∧
        (d.enqueue event).throttle = d.throttle := by
    rintro (_ | event) <;> exact ⟨rfl, rfl, rfl⟩
  cases a with
  | control r => exact absurd rfl (hcontrol r)
  | throttle step => exact absurd rfl (hthrottle step)
  | authorize a out =>
      obtain rfl := Option.some.inj hstep
      exact henqueue _
  | report event =>
      obtain rfl := Option.some.inj hstep
      exact henqueue _
  | capture packet =>
      obtain rfl := Option.some.inj hstep
      rcases DeviceState.queuedDns (.capture packet) with _ | event <;> exact ⟨rfl, rfl, rfl⟩
  | diag call =>
      obtain rfl := Option.some.inj hstep
      exact ⟨rfl, rfl, rfl⟩

/-- **One step.** -/
theorem DriverInStep.step {env : Env} {s s' : HandleView × DeviceState} {a : HandleStep}
    (h : DriverInStep s.1 s.2) (hours : a.Ours) (hstep : handleStep env s a = some s') :
    DriverInStep s'.1 s'.2 := by
  cases a with
  | call c now =>
      obtain rfl := Option.some.inj hstep
      exact h.call env c now
  | device a =>
      cases a with
      | control r => exact absurd hours not_false
      | throttle step =>
          simp only [handleStep, Driver.deviceStep, h.throttle, Option.bind_eq_bind] at hstep
          cases ht : Driver.throttleRunStep s.1.throttle step with
          | none =>
              rw [ht] at hstep
              cases hstep
          | some t =>
              rw [ht] at hstep
              obtain rfl := Option.some.inj hstep
              exact ⟨h.rules, h.policy, rfl⟩
      | _ =>
          simp only [handleStep, Option.map_eq_some_iff] at hstep
          obtain ⟨d, hd, rfl⟩ := hstep
          obtain ⟨hrules, hpolicy, hthrottle⟩ :=
            deviceStep_frame hd (fun _ heq => by cases heq) fun _ heq => by cases heq
          exact ⟨hrules.trans h.rules, hpolicy.trans h.policy, hthrottle.trans h.throttle⟩

/-- Where the service and the driver begin: no rules, and everything is allowed. -/
def HandleStart (s : HandleView × DeviceState) : Prop :=
  s.1.world.driver = [] ∧ s.1.policy = 1 ∧ s.1.throttle = .init ∧ s.2 = Driver.deviceInit

/-- The service and the driver as they begin. -/
def firstView : HandleView := ⟨emptyWorld, 1, .init⟩

def addBaseRule : HandleCall := .addRule baseRule

theorem handleStep_call (env : Env) (s : HandleView × DeviceState) (c : HandleCall) (now : U64) :
    handleStep env s (.call c now) = some (viewCall env c now s.1, transmit env c now s.1 s.2) := rfl

end Service
end Ceasefire
