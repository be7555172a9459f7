/-
# The device: `DispatchDeviceControl` of `driver/src/driver.c`

The service talks to the driver through one device.  A request has a code, a buffer that holds
the input and takes the output, and the lengths of the two; what it may contain is up to the
caller.  `dispatchDeviceControl` looks at the lengths, reads the input as the structure that the
code asks for, in the layout of the C compiler, and calls the function of the rules, the throttle
table, the queues or the counters.

A device does not only answer requests: connections are authorized, packets are captured and
checked, processes exit.  Whatever the requests and their order, every state keeps the invariants
of all tables, a refused request changes none of them, no request reads its input behind the input
length or writes behind the output length, and nothing is returned but with success
(`device_invariants`).
-/

import Ceasefire.Driver.Layouts
import Ceasefire.Driver.RuleList
import Ceasefire.Driver.ThrottleRuns

namespace Ceasefire
namespace Driver

open Lib (Codec)

/-! ## Requests -/

abbrev FILE_DEVICE_NETWORK : U32 := 0x12
abbrev METHOD_BUFFERED : U32 := 0
abbrev FILE_ANY_ACCESS : U32 := 0

/-- `CTL_CODE`. -/
def CTL_CODE (deviceType function method access : U32) : U32 :=
  deviceType <<< 16 ||| access <<< 14 ||| function <<< 2 ||| method

/-- The requests of `common.h`. -/
inductive Ioctl
  | addRule
  | removeRule
  | updateRule
  | clearRules
  | getEvent
  | getDnsEvent
  | setDefaultPolicy
  | setThrottle
  | getDiags
  | clearThrottle
  deriving DecidableEq, Repr

namespace Ioctl

def function : Ioctl → U32
  | .addRule => 0x801
  | .removeRule => 0x802
  | .updateRule => 0x803
  | .clearRules => 0x804
  | .getEvent => 0x805
  | .getDnsEvent => 0x806
  | .setDefaultPolicy => 0x807
  | .setThrottle => 0x808
  | .getDiags => 0x809
  | .clearThrottle => 0x80A

/-- The `IOCTL_*` codes. -/
def code (i : Ioctl) : U32 :=
  CTL_CODE FILE_DEVICE_NETWORK i.function METHOD_BUFFERED FILE_ANY_ACCESS

def all : List Ioctl :=
  [.addRule, .removeRule, .updateRule, .clearRules, .setDefaultPolicy, .setThrottle,
    .clearThrottle, .getEvent, .getDnsEvent, .getDiags]

/-- `switch (ioControlCode)`; `none` is the default case. -/
def ofCode (ioControlCode : U32) : Option Ioctl := all.find? fun i => i.code == ioControlCode

/-- No two requests have one code. -/
@[simp] theorem ofCode_code (i : Ioctl) : ofCode i.code = some i := by cases i <;> decide

end Ioctl

/-- The status of a request. -/
inductive IoStatus
  | of (status : NTSTATUS)
  | bufferTooSmall
  | noMoreEntries
  | invalidDeviceRequest
  deriving DecidableEq, Repr

/-- `STATUS_SUCCESS`. -/
abbrev IoStatus.success : IoStatus := .of .success

/-- A request as it comes in, with what the pool and the clock say when it is served. -/
structure IoRequest where
  ioControlCode : U32
  inputBufferLength : U32
  outputBufferLength : U32
  systemBuffer : ℕ → U8
  allocated : Bool
  now : U64

/-- `Irp->IoStatus`, and the buffer when the request is completed. -/
structure IoReply where
  status : IoStatus
  information : ℕ
  systemBuffer : ℕ → U8

namespace IoRequest

variable {α : Type}

/-- A reply that returns nothing. -/
def complete (r : IoRequest) (status : IoStatus) : IoReply := ⟨status, 0, r.systemBuffer⟩

/-- A reply that returns a structure. -/
def output (r : IoRequest) (c : Codec α) (a : α) : IoReply where
  status := .success
  information := c.size
  systemBuffer i := if i < c.size then c.write a i else r.systemBuffer i

/-- The reply to a getter; `none` is `STATUS_NO_MORE_ENTRIES`. -/
def fetched (r : IoRequest) (c : Codec α) : Option α → IoReply
  | none => r.complete .noMoreEntries
  | some a => r.output c a

end IoRequest

/-- The state behind the device. -/
structure DeviceState where
  rules : List FirewallRule
  defaultAllow : BOOLEAN
  throttle : ThrottleRun
  events : EventQueue
  dnsEvents : DnsEventQueue
  diags : CfDiags

/-- After `DriverEntry`. -/
def deviceInit : DeviceState where
  rules := []
  defaultAllow := 1
  throttle := ThrottleRun.init
  events := eventQueueInit
  dnsEvents := dnsEventQueueInit
  diags := cfDiagInit

/-- A rule request: the status of the function, and the list it leaves. -/
def DeviceState.ruleReply (d : DeviceState) (r : IoRequest)
    (result : NTSTATUS × List FirewallRule) : IoReply × DeviceState :=
  (r.complete (.of result.1), { d with rules := result.2 })

/-- `DispatchDeviceControl`. -/
def dispatchDeviceControl (r : IoRequest) (d : DeviceState) : IoReply × DeviceState :=
  match Ioctl.ofCode r.ioControlCode with
  | some .addRule =>
      if r.inputBufferLength.toNat < RULE_INPUT.size then (r.complete .bufferTooSmall, d)
      else d.ruleReply r (addRule r.allocated (RULE_INPUT.read r.systemBuffer) d.rules)
  | some .removeRule =>
      if r.inputBufferLength.toNat < RULE_ID_INPUT.size then (r.complete .bufferTooSmall, d)
      else d.ruleReply r (removeRule (RULE_ID_INPUT.read r.systemBuffer) d.rules)
  | some .updateRule =>
      if r.inputBufferLength.toNat < RULE_INPUT.size then (r.complete .bufferTooSmall, d)
      else d.ruleReply r (updateRule (RULE_INPUT.read r.systemBuffer) d.rules)
  | some .clearRules => d.ruleReply r (clearRules d.rules)
  | some .setDefaultPolicy =>
      if r.inputBufferLength.toNat < u32.size then (r.complete .bufferTooSmall, d)
      else
        let allow : BOOLEAN := if u32.read r.systemBuffer ≠ 0 then 1 else 0
        (r.complete .success, { d with defaultAllow := allow })
  | some .setThrottle =>
      if r.inputBufferLength.toNat < THROTTLE_INPUT.size then (r.complete .bufferTooSmall, d)
      else
        let (status, table) :=
          throttleSetEntry (THROTTLE_INPUT.read r.systemBuffer) r.now d.throttle.table
        (r.complete (.of status), { d with throttle := { d.throttle with table := table } })
  | some .clearThrottle =>
      (r.complete .success,
        { d with throttle := { d.throttle with table := throttleClearAll d.throttle.table } })
  | some .getEvent =>
      if r.outputBufferLength.toNat < NETWORK_EVENT.size then (r.complete .bufferTooSmall, d)
      else
        let (event, events) := getEvent d.events
        (r.fetched NETWORK_EVENT event, { d with events := events })
  | some .getDnsEvent =>
      if r.outputBufferLength.toNat < DNS_EVENT.size then (r.complete .bufferTooSmall, d)
      else
        let (event, dnsEvents) := getDnsEvent d.dnsEvents
        (r.fetched DNS_EVENT event, { d with dnsEvents := dnsEvents })
  | some .getDiags =>
      if r.outputBufferLength.toNat < CF_DIAGS.size then (r.complete .bufferTooSmall, d)
      else
        let diags := cfDiagSnapshot d.throttle.table d.diags
        (r.output CF_DIAGS diags, { d with diags := diags })
  | none => (r.complete .invalidDeviceRequest, d)

/-! ## What a request asks for -/

/-- A request whose input has been read. -/
inductive DeviceCall
  | rule (op : RuleOp)
  | setDefaultPolicy (allow : BOOLEAN)
  | setThrottle (input : ThrottleInput) (now : U64)
  | clearThrottle
  | getEvent
  | getDnsEvent
  | getDiags

namespace Ioctl

/-- The bytes that a request must bring. -/
def inputSize : Ioctl → ℕ
  | .addRule => RULE_INPUT.size
  | .removeRule => RULE_ID_INPUT.size
  | .updateRule => RULE_INPUT.size
  | .setDefaultPolicy => u32.size
  | .setThrottle => THROTTLE_INPUT.size
  | _ => 0

/-- The bytes that a request must have room for. -/
def outputSize : Ioctl → ℕ
  | .getEvent => NETWORK_EVENT.size
  | .getDnsEvent => DNS_EVENT.size
  | .getDiags => CF_DIAGS.size
  | _ => 0

/-- The input of a request, read out of the buffer. -/
def read (allocated : Bool) (now : U64) (buffer : ℕ → U8) : Ioctl → DeviceCall
  | .addRule => .rule (.add allocated (RULE_INPUT.read buffer))
  | .removeRule => .rule (.remove (RULE_ID_INPUT.read buffer))
  | .updateRule => .rule (.update (RULE_INPUT.read buffer))
  | .clearRules => .rule .clear
  | .setDefaultPolicy => .setDefaultPolicy (if u32.read buffer ≠ 0 then 1 else 0)
  | .setThrottle => .setThrottle (THROTTLE_INPUT.read buffer) now
  | .clearThrottle => .clearThrottle
  | .getEvent => .getEvent
  | .getDnsEvent => .getDnsEvent
  | .getDiags => .getDiags

/-- **The input is read inside its size.** -/
theorem read_congr (i : Ioctl) {allocated : Bool} {now : U64} {buffer buffer' : ℕ → U8}
    (h : ∀ k < i.inputSize, buffer k = buffer' k) :
    i.read allocated now buffer = i.read allocated now buffer' := by
  cases i with
  | addRule => rw [read, read, RULE_INPUT.read_congr h]
  | removeRule => rw [read, read, RULE_ID_INPUT.read_congr h]
  | updateRule => rw [read, read, RULE_INPUT.read_congr h]
  | setDefaultPolicy => rw [read, read, u32.read_congr h]
  | setThrottle => rw [read, read, THROTTLE_INPUT.read_congr h]
  | _ => rfl

end Ioctl

/-- The buffers are long enough. -/
def IoRequest.Fits (r : IoRequest) (i : Ioctl) : Prop :=
  i.inputSize ≤ r.inputBufferLength.toNat ∧ i.outputSize ≤ r.outputBufferLength.toNat

instance (r : IoRequest) (i : Ioctl) : Decidable (r.Fits i) := inferInstanceAs (Decidable (_ ∧ _))

/-- The call that a request makes, or the status with which it is refused. -/
def IoRequest.call (r : IoRequest) : Except IoStatus DeviceCall :=
  match Ioctl.ofCode r.ioControlCode with
  | none => .error .invalidDeviceRequest
  | some i =>
      if r.Fits i then .ok (i.read r.allocated r.now r.systemBuffer) else .error .bufferTooSmall

/-- A call on the state behind the device. -/
def DeviceState.serve (d : DeviceState) (r : IoRequest) : DeviceCall → IoReply × DeviceState
  | .rule op => d.ruleReply r (ruleStep d.rules op)
  | .setDefaultPolicy allow => (r.complete .success, { d with defaultAllow := allow })
  | .setThrottle input now =>
      (r.complete (.of (throttleSetEntry input now d.throttle.table).1),
        { d with
          throttle :=
            { d.throttle with table := (throttleSetEntry input now d.throttle.table).2 } })
  | .clearThrottle =>
      (r.complete .success,
        { d with throttle := { d.throttle with table := throttleClearAll d.throttle.table } })
  | .getEvent =>
      (r.fetched NETWORK_EVENT (getEvent d.events).1,
        { d with events := (getEvent d.events).2 })
  | .getDnsEvent =>
      (r.fetched DNS_EVENT (getDnsEvent d.dnsEvents).1,
        { d with dnsEvents := (getDnsEvent d.dnsEvents).2 })
  | .getDiags =>
      (r.output CF_DIAGS (cfDiagSnapshot d.throttle.table d.diags),
        { d with diags := cfDiagSnapshot d.throttle.table d.diags })

/-- What a call leaves, whatever the request was. -/
def DeviceState.after (d : DeviceState) : DeviceCall → DeviceState
  | .rule op => { d with rules := (ruleStep d.rules op).2 }
  | .setDefaultPolicy allow => { d with defaultAllow := allow }
  | .setThrottle input now =>
      { d with
        throttle := { d.throttle with table := (throttleSetEntry input now d.throttle.table).2 } }
  | .clearThrottle =>
      { d with throttle := { d.throttle with table := throttleClearAll d.throttle.table } }
  | .getEvent => { d with events := (getEvent d.events).2 }
  | .getDnsEvent => { d with dnsEvents := (getDnsEvent d.dnsEvents).2 }
  | .getDiags => { d with diags := cfDiagSnapshot d.throttle.table d.diags }

theorem DeviceState.serve_snd (d : DeviceState) (r : IoRequest) (call : DeviceCall) :
    (d.serve r call).2 = d.after call := by
  cases call <;> rfl

theorem fits_input {r : IoRequest} {i : Ioctl} (h : i.outputSize = 0) :
    r.Fits i ↔ ¬ r.inputBufferLength.toNat < i.inputSize := by
  rw [IoRequest.Fits, h, Nat.not_lt]
  exact and_iff_left (Nat.zero_le _)

theorem fits_output {r : IoRequest} {i : Ioctl} (h : i.inputSize = 0) :
    r.Fits i ↔ ¬ r.outputBufferLength.toNat < i.outputSize := by
  rw [IoRequest.Fits, h, Nat.not_lt]
  exact and_iff_right (Nat.zero_le _)

theorem fits_any {r : IoRequest} {i : Ioctl} (h : i.inputSize = 0) (h' : i.outputSize = 0) :
    r.Fits i := ⟨h ▸ Nat.zero_le _, h' ▸ Nat.zero_le _⟩

/-- **A request is refused, or it is the call that its input asks for.** -/
theorem dispatchDeviceControl_eq (r : IoRequest) (d : DeviceState) :
    dispatchDeviceControl r d =
      match r.call with
      | .error status => (r.complete status, d)
      | .ok call => d.serve r call := by
  unfold dispatchDeviceControl IoRequest.call
  cases Ioctl.ofCode r.ioControlCode with
  | none => rfl
  | some i =>
      cases i with
      | addRule =>
          simp only [fits_input (i := .addRule) rfl, ite_not, Ioctl.inputSize]
          split_ifs <;> rfl
      | removeRule =>
          simp only [fits_input (i := .removeRule) rfl, ite_not, Ioctl.inputSize]
          split_ifs <;> rfl
      | updateRule =>
          simp only [fits_input (i := .updateRule) rfl, ite_not, Ioctl.inputSize]
          split_ifs <;> rfl
      | clearRules => simp only [fits_any (r := r) (i := .clearRules) rfl rfl, if_true]; rfl
      | getEvent =>
          simp only [fits_output (i := .getEvent) rfl, ite_not, Ioctl.outputSize]
          split_ifs <;> rfl
      | getDnsEvent =>
          simp only [fits_output (i := .getDnsEvent) rfl, ite_not, Ioctl.outputSize]
          split_ifs <;> rfl
      | setDefaultPolicy =>
          -- the input is tested as well, so only the length is split on
          have hfits := fits_input (r := r) (i := .setDefaultPolicy) rfl
          by_cases hlen : r.inputBufferLength.toNat < u32.size
          · simp only [if_pos hlen, if_neg fun h => hfits.1 h hlen]
          · simp only [if_neg hlen, if_pos (hfits.2 hlen)]
            rfl
      | setThrottle =>
          simp only [fits_input (i := .setThrottle) rfl, ite_not, Ioctl.inputSize]
          split_ifs <;> rfl
      | getDiags =>
          simp only [fits_output (i := .getDiags) rfl, ite_not, Ioctl.outputSize]
          split_ifs <;> rfl
      | clearThrottle => simp only [fits_any (r := r) (i := .clearThrottle) rfl rfl, if_true]; rfl

/-- A call that is made fits its buffers. -/
theorem IoRequest.call_eq_ok {r : IoRequest} {call : DeviceCall} (h : r.call = .ok call) :
    ∃ i, Ioctl.ofCode r.ioControlCode = some i ∧ r.Fits i ∧
      i.read r.allocated r.now r.systemBuffer = call := by
  rw [IoRequest.call] at h
  cases hcode : Ioctl.ofCode r.ioControlCode with
  | none =>
      rw [hcode] at h
      cases h
  | some i =>
      simp only [hcode] at h
      split_ifs at h with hfits
      cases h
      exact ⟨i, rfl, hfits, rfl⟩

/-- **The bytes behind the input length are not looked at.** -/
theorem IoRequest.call_congr {r : IoRequest} {buffer : ℕ → U8}
    (h : ∀ k < r.inputBufferLength.toNat, r.systemBuffer k = buffer k) :
    { r with systemBuffer := buffer }.call = r.call := by
  unfold IoRequest.call
  cases Ioctl.ofCode r.ioControlCode with
  | none => rfl
  | some i =>
      simp only
      by_cases hfits : r.Fits i
      · have hfits' : { r with systemBuffer := buffer }.Fits i := hfits
        rw [if_pos hfits, if_pos hfits']
        refine congrArg _ (i.read_congr fun k hk => (h k ?_).symm)
        exact Nat.lt_of_lt_of_le hk hfits.1
      · have hfits' : ¬ { r with systemBuffer := buffer }.Fits i := hfits
        rw [if_neg hfits, if_neg hfits']

/-! ## What a call does -/

/-- The invariants of the tables behind the device. -/
structure DeviceState.Kept (d : DeviceState) : Prop where
  rules : Driver.Kept d.rules
  throttle : d.throttle.table.Kept
  headed : d.diags.Headed

theorem kept_deviceInit : deviceInit.Kept :=
  ⟨.nil, ThrottleState.kept_throttleInit, headed_cfDiagInit⟩

/-- A getter returns what the output has room for. -/
theorem IoRequest.fetched_output {α : Type} (r : IoRequest) {c : Codec α}
    (h : c.size ≤ r.outputBufferLength.toNat) (answer : Option α) :
    (r.fetched c answer).information ≤ r.outputBufferLength.toNat ∧
      ∀ k, r.outputBufferLength.toNat ≤ k →
        (r.fetched c answer).systemBuffer k = r.systemBuffer k := by
  cases answer with
  | none => exact ⟨Nat.zero_le _, fun _ _ => rfl⟩
  | some a => exact ⟨h, fun k hk => if_neg (Nat.not_lt.2 (h.trans hk))⟩

/-- Two replies return the same: the status and as many bytes, and these are equal. -/
structure IoReply.Returns (a b : IoReply) : Prop where
  status : a.status = b.status
  information : a.information = b.information
  bytes : ∀ k < b.information, a.systemBuffer k = b.systemBuffer k

theorem IoReply.Returns.nothing {a b : IoReply} (hstatus : a.status = b.status)
    (ha : a.information = 0) (hb : b.information = 0) : a.Returns b :=
  ⟨hstatus, ha.trans hb.symm, fun k hk => absurd (hb ▸ hk) (Nat.not_lt_zero k)⟩

theorem IoRequest.fetched_congr {α : Type} (r : IoRequest) (buffer : ℕ → U8) (c : Codec α)
    (answer : Option α) :
    ({ r with systemBuffer := buffer }.fetched c answer).Returns (r.fetched c answer) := by
  cases answer with
  | none => exact .nothing rfl rfl rfl
  | some a => exact ⟨rfl, rfl, fun k hk => (if_pos hk).trans (if_pos hk).symm⟩

namespace DeviceState

variable {d : DeviceState} {r : IoRequest} {call : DeviceCall}

theorem Kept.serve (h : d.Kept) (r : IoRequest) (call : DeviceCall) : (d.serve r call).2.Kept := by
  cases call with
  | rule op => exact ⟨h.rules.step op, h.throttle, h.headed⟩
  | setThrottle input now => exact ⟨h.rules, h.throttle.setEntry input now, h.headed⟩
  | clearThrottle => exact ⟨h.rules, h.throttle.clearAll, h.headed⟩
  | getDiags => exact ⟨h.rules, h.throttle, headed_cfDiagSnapshot h.headed _⟩
  | _ => exact ⟨h.rules, h.throttle, h.headed⟩

/-- **A refused call changes nothing and returns nothing.** -/
theorem serve_refused (h : (d.serve r call).1.status ≠ .success) :
    (d.serve r call).2 = d ∧ (d.serve r call).1 = r.complete (d.serve r call).1.status := by
  cases call with
  | rule op =>
      have hop : (ruleStep d.rules op).1 ≠ .success := fun heq => h (congrArg IoStatus.of heq)
      refine ⟨?_, rfl⟩
      change { d with rules := (ruleStep d.rules op).2 } = d
      rw [ruleStep_failed hop]
  | setThrottle input now =>
      have hset : (throttleSetEntry input now d.throttle.table).1 ≠ .success := fun heq =>
        h (congrArg IoStatus.of heq)
      refine ⟨?_, rfl⟩
      change { d with throttle := { d.throttle with
        table := (throttleSetEntry input now d.throttle.table).2 } } = d
      rw [ThrottleState.throttleSetEntry_refused hset]
  | getEvent =>
      simp only [DeviceState.serve] at h ⊢
      cases hget : (getEvent d.events).1 with
      | some event => exact absurd (by rw [hget]; rfl) h
      | none => exact ⟨by rw [getEvent, Lib.DropOldest.pop_snd_of_none hget], rfl⟩
  | getDnsEvent =>
      simp only [DeviceState.serve] at h ⊢
      cases hget : (getDnsEvent d.dnsEvents).1 with
      | some event => exact absurd (by rw [hget]; rfl) h
      | none => exact ⟨by rw [getDnsEvent, Lib.DropOldest.pop_snd_of_none hget], rfl⟩
  | _ => exact absurd rfl h

/-- What is returned has room in the output. -/
theorem serve_output {i : Ioctl} (hcall : i.read r.allocated r.now r.systemBuffer = call)
    (hfits : r.Fits i) :
    (d.serve r call).1.information ≤ r.outputBufferLength.toNat ∧
      ∀ k, r.outputBufferLength.toNat ≤ k →
        (d.serve r call).1.systemBuffer k = r.systemBuffer k := by
  subst hcall
  have hnothing : ∀ status, (r.complete status).information ≤ r.outputBufferLength.toNat ∧
      ∀ k, r.outputBufferLength.toNat ≤ k → (r.complete status).systemBuffer k = r.systemBuffer k :=
    fun status => ⟨Nat.zero_le _, fun _ _ => rfl⟩
  cases i with
  | getEvent => exact r.fetched_output hfits.2 _
  | getDnsEvent => exact r.fetched_output hfits.2 _
  | getDiags => exact r.fetched_output hfits.2 (some _)
  | _ => exact hnothing _

/-- What a call does does not depend on the buffer, nor does what it returns. -/
theorem serve_congr (d : DeviceState) (r : IoRequest) (buffer : ℕ → U8) (call : DeviceCall) :
    (d.serve { r with systemBuffer := buffer } call).2 = (d.serve r call).2 ∧
      (d.serve { r with systemBuffer := buffer } call).1.Returns (d.serve r call).1 := by
  cases call with
  | getEvent => exact ⟨rfl, r.fetched_congr buffer NETWORK_EVENT _⟩
  | getDnsEvent => exact ⟨rfl, r.fetched_congr buffer DNS_EVENT _⟩
  | getDiags => exact ⟨rfl, r.fetched_congr buffer CF_DIAGS (some _)⟩
  | _ => exact ⟨rfl, .nothing rfl rfl rfl⟩

end DeviceState

/-! ## Runs -/

/-- What `DnsCommon` is called with.  `payload` is the data of the first `NET_BUFFER`, and `linear`
says whether `NdisGetDataBuffer` could give it in one piece. -/
structure DnsIndication where
  remote : IpAddr
  remotePort : U16
  protocol : U8
  payload : Option (List U8)
  linear : Bool
  interruptTime : U64

/-- `DnsCommon`: the event that is queued. -/
def dnsCommon (c : DnsIndication) : Option DnsEvent :=
  if c.protocol ≠ 17 ∨ c.remotePort ≠ 53 then none
  else
    match c.payload with
    | none => none
    | some payload =>
        let dataLen := min payload.length 512
        if dataLen < 12 then none
        else if !c.linear then none
        else
          some
            { timestamp := c.interruptTime
              processId := 0
              remoteAddr :=
                match c.remote with
                | .v4 v4 => cfAddrSetV4 v4
                | .v6 v6 => cfAddrSetV6 v6
              addressFamily :=
                match c.remote with
                | .v4 _ => CF_ADDR_FAMILY_V4
                | .v6 _ => CF_ADDR_FAMILY_V6
              dataLength := BitVec.ofNat 16 (min dataLen 512)
              data := fun i => if i.val < min dataLen 512 then payload.getD i.val 0 else 0 }

/-- The data of a captured event: the first bytes of the payload, and their number. -/
theorem dnsCommon_data {c : DnsIndication} {event : DnsEvent} (h : dnsCommon c = some event) :
    ∃ payload, c.payload = some payload ∧
      event.dataLength.toNat = min payload.length 512 ∧
      ∀ i, event.data i = if i.val < min payload.length 512 then payload.getD i.val 0 else 0 := by
  rw [dnsCommon] at h
  by_cases hport : c.protocol ≠ 17 ∨ c.remotePort ≠ 53
  · rw [if_pos hport] at h
    cases h
  rw [if_neg hport] at h
  cases hpayload : c.payload with
  | none =>
      rw [hpayload] at h
      cases h
  | some payload =>
      simp only [hpayload] at h
      split_ifs at h
      obtain rfl := Option.some.inj h
      have hle : min payload.length 512 ≤ 512 := Nat.min_le_right _ _
      refine ⟨payload, rfl, ?_, fun i => ?_⟩
      · rw [Nat.min_eq_left hle, BitVec.toNat_ofNat, Nat.mod_eq_of_lt (by omega)]
      · simp only [Nat.min_eq_left hle]

/-- What happens to a device: a request, an authorized connection, the report of a closed flow, an
inbound packet, a section of the throttle table, a count. -/
inductive DeviceStep
  | control (r : IoRequest)
  | authorize (a : AleClassify) (out : ClassifyOut)
  | report (event : NetworkEvent)
  | capture (packet : DnsIndication)
  | throttle (step : ThrottleSection)
  | diag (call : DiagCall)

namespace DeviceState

/-- The events that a step queues. -/
def queued (d : DeviceState) : DeviceStep → Option NetworkEvent
  | .authorize a out => (processAleAuth d.defaultAllow d.rules a out).2.1
  | .report event => some event
  | _ => none

def queuedDns : DeviceStep → Option DnsEvent
  | .capture packet => dnsCommon packet
  | _ => none

def enqueue (d : DeviceState) : Option NetworkEvent → DeviceState
  | none => d
  | some event => { d with events := queueEvent event.buffer d.events }

def enqueueDns (d : DeviceState) : Option DnsEvent → DeviceState
  | none => d
  | some event => { d with dnsEvents := queueDnsEvent event d.dnsEvents }

end DeviceState

def deviceStep (d : DeviceState) : DeviceStep → Option DeviceState
  | .control r => some (dispatchDeviceControl r d).2
  | .authorize a out => some (d.enqueue (d.queued (.authorize a out)))
  | .report event => some (d.enqueue (d.queued (.report event)))
  | .capture packet => some (d.enqueueDns (DeviceState.queuedDns (.capture packet)))
  | .throttle step => (throttleRunStep d.throttle step).map fun t => { d with throttle := t }
  | .diag call => some { d with diags := call.apply d.diags }

namespace DeviceState

variable {d d' : DeviceState}

theorem Kept.dispatch (h : d.Kept) (r : IoRequest) : (dispatchDeviceControl r d).2.Kept := by
  rw [dispatchDeviceControl_eq]
  cases r.call with
  | error status => exact h
  | ok call => exact h.serve r call

theorem Kept.step (h : d.Kept) {a : DeviceStep} (hstep : deviceStep d a = some d') : d'.Kept := by
  have henqueue : ∀ event, (d.enqueue event).Kept := by
    rintro (_ | event)
    · exact h
    · exact ⟨h.rules, h.throttle, h.headed⟩
  cases a with
  | control r =>
      obtain rfl := Option.some.inj hstep
      exact h.dispatch r
  | authorize a out =>
      obtain rfl := Option.some.inj hstep
      exact henqueue _
  | report event =>
      obtain rfl := Option.some.inj hstep
      exact henqueue _
  | capture packet =>
      obtain rfl := Option.some.inj hstep
      cases DeviceState.queuedDns (.capture packet) with
      | none => exact h
      | some event => exact ⟨h.rules, h.throttle, h.headed⟩
  | throttle step =>
      obtain ⟨t, ht, rfl⟩ := Option.map_eq_some_iff.1 hstep
      exact ⟨h.rules, h.throttle.step ht, h.headed⟩
  | diag call =>
      obtain rfl := Option.some.inj hstep
      exact ⟨h.rules, h.throttle, call.headed_apply h.headed⟩

end DeviceState

/-- The states of a device from `DriverEntry` on. -/
abbrev DeviceReach : DeviceState → Prop :=
  Lib.Reach (· = deviceInit) deviceStep fun _ _ => True

theorem DeviceReach.kept {d : DeviceState} (h : DeviceReach d) : d.Kept :=
  h.invariant (I := DeviceState.Kept) (fun s (hs : s = deviceInit) => hs ▸ kept_deviceInit)
    fun _ _ _ hs _ hstep => hs.step hstep

/-- **The device under any requests.**  In every state of every run, whatever codes, lengths and
bytes the requests had, the rules are in order, with distinct ids and no more than `MAX_RULES`, and
the throttle table is consistent.  The next request changes nothing and returns nothing unless it
succeeds; its reply stays inside the output length; and neither the reply nor what it does depends
on the bytes behind the input length. -/
theorem device_invariants (d : DeviceState) (h : DeviceReach d) :
    Kept d.rules ∧ d.throttle.table.Consistent ∧
      ∀ r : IoRequest,
        ((dispatchDeviceControl r d).1.status ≠ .success →
          (dispatchDeviceControl r d).2 = d ∧ (dispatchDeviceControl r d).1.information = 0 ∧
            (dispatchDeviceControl r d).1.systemBuffer = r.systemBuffer) ∧
        (dispatchDeviceControl r d).1.information ≤ r.outputBufferLength.toNat ∧
        (∀ k, r.outputBufferLength.toNat ≤ k →
          (dispatchDeviceControl r d).1.systemBuffer k = r.systemBuffer k) ∧
        ∀ buffer : ℕ → U8, (∀ k < r.inputBufferLength.toNat, r.systemBuffer k = buffer k) →
          (dispatchDeviceControl { r with systemBuffer := buffer } d).2 =
              (dispatchDeviceControl r d).2 ∧
            (dispatchDeviceControl { r with systemBuffer := buffer } d).1.Returns
              (dispatchDeviceControl r d).1 := by
  have hkept := h.kept
  refine ⟨hkept.rules, hkept.throttle.consistent, fun r => ?_⟩
  have hdispatch := dispatchDeviceControl_eq r d
  cases hcall : r.call with
  | error status =>
      simp only [hcall] at hdispatch
      rw [hdispatch]
      refine ⟨fun _ => ⟨rfl, rfl, rfl⟩, Nat.zero_le _, fun _ _ => rfl, fun buffer hbuffer => ?_⟩
      rw [dispatchDeviceControl_eq, r.call_congr hbuffer, hcall]
      exact ⟨rfl, .nothing rfl rfl rfl⟩
  | ok call =>
      simp only [hcall] at hdispatch
      rw [hdispatch]
      obtain ⟨i, -, hfits, hread⟩ := IoRequest.call_eq_ok hcall
      obtain ⟨hlength, hbehind⟩ := d.serve_output hread hfits
      refine ⟨fun hno => ?_, hlength, hbehind, fun buffer hbuffer => ?_⟩
      · obtain ⟨hstate, hreply⟩ := DeviceState.serve_refused hno
        rw [hreply]
        exact ⟨hstate, rfl, rfl⟩
      · rw [dispatchDeviceControl_eq, r.call_congr hbuffer, hcall]
        exact d.serve_congr r buffer call

/-- A rule that blocks everything, as bytes for `IOCTL_ADD_RULE`. -/
def addRequest : IoRequest where
  ioControlCode := Ioctl.addRule.code
  inputBufferLength := BitVec.ofNat 32 Ioctl.addRule.inputSize
  outputBufferLength := 0
  systemBuffer k := if k = 0 then 1 else 0
  allocated := true
  now := 0

/-- Eight bytes for `IOCTL_ADD_RULE`, in a buffer that has more. -/
def shortRequest : IoRequest where
  ioControlCode := Ioctl.addRule.code
  inputBufferLength := 8
  outputBufferLength := 0
  systemBuffer _ := 1
  allocated := true
  now := 0

/-- A rule is added, and then a request that is too short changes nothing. -/
theorem device_invariants_added :
    ∃ d, deviceStep deviceInit (.control addRequest) = some d ∧
      d.rules.map FirewallRule.ruleId = [1] ∧ Kept d.rules ∧
        (dispatchDeviceControl shortRequest d).2 = d ∧
          (dispatchDeviceControl shortRequest d).1.information = 0 := by
  have hrun : (deviceStep deviceInit (.control addRequest)).map (fun d =>
      (d.rules.map FirewallRule.ruleId, (dispatchDeviceControl shortRequest d).1.status)) =
        some ([1], .bufferTooSmall) := by
    decide +kernel
  obtain ⟨d, hd, hend⟩ := Option.map_eq_some_iff.1 hrun
  obtain ⟨hids, hstatus⟩ := Prod.mk.inj hend
  have hreach : DeviceReach d := .next (.control addRequest) (.init rfl) trivial hd
  obtain ⟨hkept, -, hrequests⟩ := device_invariants d hreach
  obtain ⟨hsame, hnothing, -⟩ := (hrequests shortRequest).1 (by rw [hstatus]; decide)
  exact ⟨d, hd, hids, hkept, hsame, hnothing⟩

end Driver
end Ceasefire
